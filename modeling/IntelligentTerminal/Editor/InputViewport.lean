import IntelligentTerminal.Editor.Wrapping

/-!
# The part of the prompt that the input box shows

The box shows a few rows of the wrapped prompt, and scrolls so that the row of the cursor is one of
them. A click is mapped back to a position of the text by wrapping it once more.

Source: `tools/wta/src/ui/input.rs`, lines 10-38, 295-336 and 389-508.
-/

namespace IntelligentTerminal.Editor

open Data

structure Rect where
  x : ℕ
  y : ℕ
  width : ℕ
  height : ℕ

/-- `u16::saturating_add`. -/
def saturatingAdd (a b : ℕ) : ℕ := min (a + b) 65535

namespace Rect

def right (area : Rect) : ℕ := saturatingAdd area.x area.width

def bottom (area : Rect) : ℕ := saturatingAdd area.y area.height

end Rect

/-- `slice[start..stop]`, which panics if it is out of range. -/
def slice {α : Type*} (xs : List α) (start stop : ℕ) : Option (List α) :=
  if start ≤ stop ∧ stop ≤ xs.length then some ((xs.take stop).drop start) else none

/-- `usize::clamp`. -/
def clamp (low high n : ℕ) : ℕ := max low (min n high)

variable (env : Env) (input : List Char) (cursorPos : ℕ)

variable {env}

variable (env)

end IntelligentTerminal.Editor
