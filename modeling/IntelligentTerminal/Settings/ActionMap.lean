import Mathlib

/-!
# Renaming a command

An action map stores its commands under their ids, and each key chord is bound to an id.
`UpdateCommandID` gives a command another id. When a command with another action holds this id, it
is first renamed to the id that is generated for it, which can displace a further command.

Commands and their `ActionAndArgs` are objects. `!=` of two of these compares the objects and not
what they hold. A command that is passed on the way still holds its old id, so that a cycle of
commands that hold each other's ids is followed forever.

The caches that `_RefreshKeyBindingCaches` computes anew from the maps are left out. The map has no
parents.

Source: `src/cascadia/TerminalSettingsModel/ActionMap.cpp`, lines 379-403 and 1223-1267.
-/

namespace IntelligentTerminal.Settings

/-- The commands: the `ActionAndArgs` of each command, the action and the arguments that it holds,
and `GenerateID`, as a function of these. -/
structure Commands (C R A I : Type*) where
  actionAndArgs : C → R
  value : R → A
  generate : A → I
  empty : I

variable {C R A I K : Type*}

/-- `ActionAndArgs::GenerateID`. -/
def Commands.generateID (env : Commands C R A I) (actionAndArgs : R) : I :=
  env.generate (env.value actionAndArgs)

/-- The action and the arguments of a command. -/
def Commands.action (env : Commands C R A I) (cmd : C) : A := env.value (env.actionAndArgs cmd)

/-- `ActionMap`: the ids of the commands, `_ActionMap` and `_KeyMap`. -/
structure ActionMap (C I K : Type*) where
  id : C → I
  commands : I → Option C
  keys : K → Option I

namespace ActionMap

/-- The command that a key chord resolves to. -/
def resolve (s : ActionMap C I K) (key : K) : Option C := (s.keys key).bind s.commands

/-- The commands are stored under their own ids. -/
def Stored (s : ActionMap C I K) : Prop := ∀ i cmd, s.commands i = some cmd → s.id cmd = i

/-- A command of the map. -/
def Has (s : ActionMap C I K) (cmd : C) : Prop := ∃ i, s.commands i = some cmd

/-- What remains of a map: the key chords run the same actions, and a command is only dropped for
another one with an equal action. -/
structure Keeps (env : Commands C R A I) (s s' : ActionMap C I K) : Prop where
  resolves : ∀ key cmd, s.resolve key = some cmd →
    ∃ cmd', s'.resolve key = some cmd' ∧ env.action cmd' = env.action cmd
  has : ∀ cmd, s.Has cmd → s'.Has cmd ∨
    ∃ other ≠ cmd, s.Has other ∧ s'.Has other ∧ env.action other = env.action cmd
  has_of_has : ∀ cmd, s'.Has cmd → s.Has cmd

/-- The commands that are renamed, beginning with `cmd`, up to a command that displaces none, or
whose own id is the generated one. -/
inductive Displaces (env : Commands C R A I) (s : ActionMap C I K) : C → I → List C → Prop
  | same {cmd newID} (h : newID = s.id cmd) : Displaces env s cmd newID []
  | free {cmd newID} (h : newID ≠ s.id cmd) (hfree : s.commands newID = none) :
      Displaces env s cmd newID [cmd]
  | shared {cmd newID found} (h : newID ≠ s.id cmd) (hfound : s.commands newID = some found)
      (heq : env.actionAndArgs found = env.actionAndArgs cmd) : Displaces env s cmd newID [cmd]
  | held {cmd newID found renamed} (h : newID ≠ s.id cmd)
      (hfound : s.commands newID = some found)
      (hne : env.actionAndArgs found ≠ env.actionAndArgs cmd)
      (hnext : Displaces env s found (env.generateID (env.actionAndArgs found)) renamed) :
      Displaces env s cmd newID (cmd :: renamed)

variable {env : Commands C R A I} {s s' s'' : ActionMap C I K} {cmd other : C} {oldID newID : I}
  {renamed renamed' : List C}

theorem Stored.commands_id (hs : s.Stored) (h : s.Has cmd) : s.commands (s.id cmd) = some cmd := by
  obtain ⟨i, hi⟩ := h
  rw [hs i cmd hi, hi]

theorem Keeps.refl (env : Commands C R A I) (s : ActionMap C I K) : s.Keeps env s :=
  ⟨fun _ cmd h => ⟨cmd, h, rfl⟩, fun _ h => .inl h, fun _ h => h⟩

theorem Keeps.trans (h : s.Keeps env s') (h' : s'.Keeps env s'') : s.Keeps env s'' := by
  refine ⟨fun key cmd hkey => ?_, fun cmd hcmd => ?_, fun cmd hcmd => ?_⟩
  · obtain ⟨cmd', hkey', heq⟩ := h.resolves key cmd hkey
    obtain ⟨cmd'', hkey'', heq'⟩ := h'.resolves key cmd' hkey'
    exact ⟨cmd'', hkey'', heq'.trans heq⟩
  · by_cases hcmd' : s'.Has cmd
    · obtain hcmd'' | ⟨other, hne, hother, hother', heq⟩ := h'.has cmd hcmd'
      · exact .inl hcmd''
      · exact .inr ⟨other, hne, h.has_of_has other hother, hother', heq⟩
    · obtain ⟨other, hne, hother, hother', heq⟩ := (h.has cmd hcmd).resolve_left hcmd'
      obtain hkept | ⟨third, -, hthird, hthird', heq'⟩ := h'.has other hother'
      · exact .inr ⟨other, hne, hother, hkept, heq⟩
      · refine .inr ⟨third, ?_, h.has_of_has third hthird, hthird', heq'.trans heq⟩
        rintro rfl
        exact hcmd' hthird
  · exact h.has_of_has cmd (h'.has_of_has cmd hcmd)

/-! ### The commands that are renamed -/

theorem Displaces.unique (h : Displaces env s cmd newID renamed)
    (h' : Displaces env s cmd newID renamed') : renamed = renamed' := by
  induction h generalizing renamed' with
  | same h =>
    cases h' with
    | same => rfl
    | free hne | shared hne | held hne => exact absurd h hne
  | free h hfree =>
    cases h' with
    | same heq => exact absurd heq h
    | free => rfl
    | shared _ hfound | held _ hfound => exact absurd (hfree.symm.trans hfound) nofun
  | shared h hfound heq =>
    cases h' with
    | same heq => exact absurd heq h
    | free _ hfree => exact absurd (hfree.symm.trans hfound) nofun
    | shared => rfl
    | held _ hfound' hne =>
      obtain rfl := Option.some.inj (hfound.symm.trans hfound')
      exact absurd heq hne
  | held h hfound hne _ ih =>
    cases h' with
    | same heq => exact absurd heq h
    | free _ hfree => exact absurd (hfree.symm.trans hfound) nofun
    | shared _ hfound' heq =>
      obtain rfl := Option.some.inj (hfound.symm.trans hfound')
      exact absurd heq hne
    | held _ hfound' _ hnext =>
      obtain rfl := Option.some.inj (hfound.symm.trans hfound')
      rw [ih hnext]

theorem Displaces.of_mem_tail (h : Displaces env s cmd newID renamed)
    (hother : other ∈ renamed.tail) :
    ∃ renamed', Displaces env s other (env.generateID (env.actionAndArgs other)) renamed' ∧
      renamed'.length < renamed.length := by
  induction h with
  | same | free | shared => exact absurd hother List.not_mem_nil
  | @held cmd newID found renamed h hfound hne hnext ih =>
    rw [List.tail_cons] at hother
    cases hnext with
    | same => exact absurd hother List.not_mem_nil
    | free hne' hfree =>
      obtain rfl := List.mem_singleton.mp hother
      exact ⟨_, .free hne' hfree, Nat.lt_succ_self _⟩
    | shared hne' hfound' heq =>
      obtain rfl := List.mem_singleton.mp hother
      exact ⟨_, .shared hne' hfound' heq, Nat.lt_succ_self _⟩
    | held hne' hfound' hdiffers hnext' =>
      obtain rfl | hother := List.mem_cons.mp hother
      · exact ⟨_, .held hne' hfound' hdiffers hnext', Nat.lt_succ_self _⟩
      · obtain ⟨renamed', hdisplaces, hlength⟩ := ih hother
        exact ⟨renamed', hdisplaces, hlength.trans (Nat.lt_succ_self _)⟩

theorem Displaces.not_mem_tail
    (h : Displaces env s cmd (env.generateID (env.actionAndArgs cmd)) renamed) :
    cmd ∉ renamed.tail := by
  intro hcmd
  obtain ⟨renamed', hdisplaces, hlength⟩ := h.of_mem_tail hcmd
  rw [h.unique hdisplaces] at hlength
  exact absurd hlength (lt_irrefl _)

theorem Displaces.eq_nil (h : Displaces env s cmd newID renamed) (heq : newID = s.id cmd) :
    renamed = [] :=
  h.unique (.same heq)

/-! ### One renaming -/

variable [DecidableEq C] [DecidableEq I]

/-- The assignments in `UpdateCommandID`. `emplace` does nothing for an id that is held. -/
def rename (s : ActionMap C I K) (cmd : C) (oldID newID : I) : ActionMap C I K :=
  let erased := Function.update s.commands oldID none
  { id := Function.update s.id cmd newID
    commands := Function.update erased newID (some ((erased newID).getD cmd))
    keys := fun key => if s.keys key = some oldID then some newID else s.keys key }

section Rename

theorem commands_rename_new (s : ActionMap C I K) (cmd : C) (hnew : newID ≠ oldID) :
    (s.rename cmd oldID newID).commands newID = some ((s.commands newID).getD cmd) := by
  rw [rename]
  dsimp only
  rw [Function.update_self, Function.update_of_ne hnew]

theorem commands_rename_old (s : ActionMap C I K) (cmd : C) (hnew : newID ≠ oldID) :
    (s.rename cmd oldID newID).commands oldID = none := by
  rw [rename]
  dsimp only
  rw [Function.update_of_ne hnew.symm, Function.update_self]

variable (hs : s.Stored) (hold : s.commands oldID = some cmd) (hnew : newID ≠ oldID)
include hs hold hnew

omit hs in
theorem commands_rename_of_ne {i : I} (hother : s.commands i = some other) (hne : other ≠ cmd) :
    (s.rename cmd oldID newID).commands i = some other := by
  have hi : i ≠ oldID := by
    rintro rfl
    exact hne (Option.some.inj (hother.symm.trans hold))
  by_cases hi' : i = newID
  · rw [hi', commands_rename_new s cmd hnew, ← hi', hother, Option.getD_some]
  · rw [rename]
    dsimp only
    rw [Function.update_of_ne hi', Function.update_of_ne hi, hother]

theorem commands_rename_eq_some {i : I} {found : C}
    (h : (s.rename cmd oldID newID).commands i = some found) :
    s.commands i = some found ∧ found ≠ cmd ∨ i = newID ∧ found = cmd := by
  by_cases hi : i = newID
  · subst hi
    rw [commands_rename_new s cmd hnew] at h
    have hget := Option.some.inj h
    cases hother : s.commands i with
    | none =>
      rw [hother, Option.getD_none] at hget
      exact .inr ⟨rfl, hget.symm⟩
    | some other =>
      rw [hother, Option.getD_some] at hget
      subst hget
      refine .inl ⟨rfl, ?_⟩
      rintro rfl
      exact hnew ((hs i _ hother).symm.trans (hs oldID _ hold))
  · have hi' : i ≠ oldID := by
      rintro rfl
      rw [commands_rename_old s cmd hnew] at h
      exact absurd h nofun
    rw [rename] at h
    dsimp only at h
    rw [Function.update_of_ne hi, Function.update_of_ne hi'] at h
    refine .inl ⟨h, ?_⟩
    rintro rfl
    exact hi' ((hs i _ h).symm.trans (hs oldID _ hold))

theorem stored_rename : (s.rename cmd oldID newID).Stored := by
  intro i found hfound
  have hid : (s.rename cmd oldID newID).id = Function.update s.id cmd newID := rfl
  obtain ⟨hfound, hne⟩ | ⟨rfl, rfl⟩ := commands_rename_eq_some hs hold hnew hfound
  · rw [hid, Function.update_of_ne hne]
    exact hs i found hfound
  · rw [hid, Function.update_self]

theorem keeps_rename
    (hfree : ∀ found, s.commands newID = some found → env.action found = env.action cmd) :
    s.Keeps env (s.rename cmd oldID newID) := by
  have haction : env.action ((s.commands newID).getD cmd) = env.action cmd := by
    cases hfound : s.commands newID with
    | none => rfl
    | some found => exact hfree found hfound
  refine ⟨fun key found hkey => ?_, fun found hfound => ?_, fun found hfound => ?_⟩
  · obtain ⟨i, hi, hfound⟩ := Option.bind_eq_some_iff.mp hkey
    by_cases hi' : i = oldID
    · subst hi'
      obtain rfl := Option.some.inj (hold.symm.trans hfound)
      refine ⟨_, ?_, haction⟩
      have hkeys : (s.rename cmd i newID).keys key = some newID := if_pos hi
      rw [resolve, hkeys]
      exact commands_rename_new s cmd hnew
    · have hkeys : (s.rename cmd oldID newID).keys key = some i := by
        refine (if_neg fun heq => hi' ?_).trans hi
        exact Option.some.inj (hi.symm.trans heq)
      have hne : found ≠ cmd := by
        rintro rfl
        exact hi' ((hs i _ hfound).symm.trans (hs oldID _ hold))
      refine ⟨found, ?_, rfl⟩
      rw [resolve, hkeys]
      exact commands_rename_of_ne hold hnew hfound hne
  · by_cases hne : found = cmd
    · subst hne
      cases hfound' : s.commands newID with
      | none =>
        refine .inl ⟨newID, ?_⟩
        rw [commands_rename_new s found hnew, hfound', Option.getD_none]
      | some other =>
        refine .inr ⟨other, ?_, ⟨newID, hfound'⟩, ⟨newID, ?_⟩, hfree other hfound'⟩
        · rintro rfl
          exact hnew ((hs newID _ hfound').symm.trans (hs oldID _ hold))
        · rw [commands_rename_new s found hnew, hfound', Option.getD_some]
    · obtain ⟨i, hi⟩ := hfound
      exact .inl ⟨i, commands_rename_of_ne hold hnew hi hne⟩
  · obtain ⟨i, hi⟩ := hfound
    obtain ⟨hi, -⟩ | ⟨-, rfl⟩ := commands_rename_eq_some hs hold hnew hi
    · exact ⟨i, hi⟩
    · exact ⟨oldID, hold⟩

end Rename

theorem rename_after (hs : s.Has cmd) (hnew : newID ≠ s.id cmd) (hs' : s'.Stored)
    (hkeeps : s.Keeps env s')
    (hframe : ∀ other ∉ renamed, s.Has other → s'.commands (s.id other) = some other)
    (hcmd : cmd ∉ renamed)
    (hfree : ∀ found, s'.commands newID = some found → env.action found = env.action cmd) :
    (s'.rename cmd (s.id cmd) newID).Stored ∧ s.Keeps env (s'.rename cmd (s.id cmd) newID) ∧
      (∀ other ∉ cmd :: renamed, s.Has other →
        (s'.rename cmd (s.id cmd) newID).commands (s.id other) = some other) ∧
      (newID ≠ s.id cmd → (s'.rename cmd (s.id cmd) newID).commands (s.id cmd) = none) := by
  have hold := hframe cmd hcmd hs
  refine ⟨stored_rename hs' hold hnew, hkeeps.trans (keeps_rename hs' hold hnew hfree),
    fun other hother hhas => ?_, commands_rename_old s' cmd⟩
  rw [List.mem_cons, not_or] at hother
  exact commands_rename_of_ne hold hnew (hframe other hother.2 hhas) hother.1

/-! ### The recursion -/

variable [DecidableEq R]

/-- The id that a command is to get: the generated one, if none is given. -/
def target (env : Commands C R A I) (cmd : C) (newID : I) : I :=
  if newID = env.empty then env.generateID (env.actionAndArgs cmd) else newID

/-- `ActionMap::UpdateCommandID`, for at most `fuel` calls. -/
def updateCommandID (env : Commands C R A I) :
    ℕ → ActionMap C I K → C → I → Option (ActionMap C I K)
  | 0, _, _, _ => none
  | fuel + 1, s, cmd, newID =>
    let oldID := s.id cmd
    let newID := target env cmd newID
    if newID = oldID then some s
    else
      let freed := match s.commands newID with
        | none => some s
        | some found =>
          if env.actionAndArgs found = env.actionAndArgs cmd then some s
          else updateCommandID env fuel s found (env.generateID (env.actionAndArgs found))
      freed.map fun s => s.rename cmd oldID newID

def Renames (env : Commands C R A I) (s : ActionMap C I K) (cmd : C) (newID : I) : Prop :=
  ∃ fuel s', updateCommandID env fuel s cmd newID = some s' ∧ s'.Stored ∧ s.Keeps env s'

section Recursion

omit [DecidableEq C] [DecidableEq R] in
theorem target_of_ne (env : Commands C R A I) (cmd : C) (h : newID ≠ env.empty) :
    target env cmd newID = newID :=
  if_neg h

variable (hempty : ∀ a, env.generate a ≠ env.empty)
include hempty

theorem exists_displaces {fuel : ℕ} (h : updateCommandID env fuel s cmd newID = some s') :
    ∃ renamed, Displaces env s cmd (target env cmd newID) renamed := by
  induction fuel generalizing cmd newID s' with
  | zero => exact absurd h nofun
  | succ fuel ih =>
    rw [updateCommandID] at h
    dsimp only at h
    by_cases hsame : target env cmd newID = s.id cmd
    · exact ⟨_, .same hsame⟩
    rw [if_neg hsame] at h
    cases hfound : s.commands (target env cmd newID) with
    | none => exact ⟨_, .free hsame hfound⟩
    | some found =>
      rw [hfound] at h
      dsimp only at h
      by_cases hshared : env.actionAndArgs found = env.actionAndArgs cmd
      · exact ⟨_, .shared hsame hfound hshared⟩
      · rw [if_neg hshared] at h
        obtain ⟨s₁, hfreed, -⟩ := Option.map_eq_some_iff.mp h
        obtain ⟨renamed, hnext⟩ := ih hfreed
        have hgenerated : env.generateID (env.actionAndArgs found) ≠ env.empty := hempty _
        rw [target_of_ne env found hgenerated] at hnext
        exact ⟨_, .held hsame hfound hshared hnext⟩

theorem exists_updateCommandID (hinj : Function.Injective env.generate) (hs : s.Stored)
    (h : Displaces env s cmd newID renamed) (hcmd : s.Has cmd) (htail : cmd ∉ renamed.tail)
    (hfirst : ∀ found, s.commands newID = some found →
      env.generateID (env.actionAndArgs found) = newID → env.action found = env.action cmd)
    (hne : newID ≠ env.empty) :
    ∃ s', updateCommandID env (renamed.length + 1) s cmd newID = some s' ∧ s'.Stored ∧
      s.Keeps env s' ∧ (∀ other ∉ renamed, s.Has other → s'.commands (s.id other) = some other) ∧
      (newID ≠ s.id cmd → s'.commands (s.id cmd) = none) := by
  induction h with
  | same h =>
    refine ⟨s, ?_, hs, Keeps.refl env s, fun other _ => hs.commands_id, fun hnew => absurd h hnew⟩
    rw [updateCommandID, target_of_ne env _ hne]
    exact if_pos h
  | free hnew hfree =>
    refine ⟨_, ?_, rename_after hcmd hnew hs (Keeps.refl env s)
      (fun other (_ : other ∉ []) => hs.commands_id) List.not_mem_nil fun found hfound => ?_⟩
    · rw [updateCommandID, target_of_ne env _ hne]
      dsimp only
      rw [if_neg hnew, hfree]
      rfl
    · exact absurd (hfree.symm.trans hfound) nofun
  | shared hnew hfound heq =>
    refine ⟨_, ?_, rename_after hcmd hnew hs (Keeps.refl env s)
      (fun other (_ : other ∉ []) => hs.commands_id) List.not_mem_nil fun found hfound' => ?_⟩
    · rw [updateCommandID, target_of_ne env _ hne]
      dsimp only
      rw [if_neg hnew, hfound]
      dsimp only
      rw [if_pos heq]
      rfl
    · obtain rfl := Option.some.inj (hfound.symm.trans hfound')
      exact congrArg env.value heq
  | @held cmd newID found renamed hnew hfound hdiffers hnext ih =>
    obtain ⟨s₁, hupdate, hs₁, hkeeps, hframe, hfreed⟩ := ih ⟨newID, hfound⟩ hnext.not_mem_tail
      (fun other hother heq => hinj heq) (hempty _)
    refine ⟨_, ?_, rename_after hcmd hnew hs₁ hkeeps hframe htail fun other hother => ?_⟩
    · rw [List.length_cons, updateCommandID, target_of_ne env _ hne]
      dsimp only
      rw [if_neg hnew, hfound]
      dsimp only
      rw [if_neg hdiffers, hupdate]
      rfl
    · have hid := hs newID found hfound
      by_cases hgenerated : env.generateID (env.actionAndArgs found) = s.id found
      · have hother' := hframe found (by rw [hnext.eq_nil hgenerated]; exact List.not_mem_nil)
          ⟨newID, hfound⟩
        rw [hid] at hother'
        obtain rfl := Option.some.inj (hother'.symm.trans hother)
        exact hfirst _ hfound (hgenerated.trans hid)
      · have hnone := hfreed hgenerated
        rw [hid] at hnone
        exact absurd (hnone.symm.trans hother) nofun

theorem renames_of_displaces (hinj : Function.Injective env.generate) (hs : s.Stored)
    (hcmd : s.Has cmd) (h : Displaces env s cmd (target env cmd newID) renamed)
    (htail : cmd ∉ renamed.tail)
    (hfirst : ∀ found, s.commands (target env cmd newID) = some found →
      env.generateID (env.actionAndArgs found) = target env cmd newID →
        env.action found = env.action cmd) :
    Renames env s cmd newID := by
  have hne : target env cmd newID ≠ env.empty := by
    rw [target]
    split_ifs with hnew
    · exact hempty _
    · exact hnew
  obtain ⟨s', hupdate, hs', hkeeps, -⟩ :=
    exists_updateCommandID hempty hinj hs h hcmd htail hfirst hne
  refine ⟨renamed.length + 1, s', ?_, hs', hkeeps⟩
  rw [← hupdate, updateCommandID, updateCommandID]
  dsimp only
  rw [target_of_ne env cmd hne]

end Recursion

/-- A renaming does what it is to do if the commands that are displaced do not come back to the one
that is renamed, and if a command that holds its generated id has the same action. It terminates only
if they come to an end. For a generated id this is all. -/
theorem renames_iff (env : Commands C R A I) (hinj : Function.Injective env.generate)
    (hempty : ∀ a, env.generate a ≠ env.empty) (s : ActionMap C I K) (hs : s.Stored) (cmd : C)
    (hcmd : s.Has cmd) (newID : I) :
    ((∃ renamed, Displaces env s cmd (target env cmd newID) renamed ∧ cmd ∉ renamed.tail) →
      (∀ found, s.commands (target env cmd newID) = some found →
        env.generateID (env.actionAndArgs found) = target env cmd newID →
          env.action found = env.action cmd) → Renames env s cmd newID) ∧
    (Renames env s cmd newID → ∃ renamed, Displaces env s cmd (target env cmd newID) renamed) ∧
    (target env cmd newID = env.generateID (env.actionAndArgs cmd) → (Renames env s cmd newID ↔
      ∃ renamed, Displaces env s cmd (target env cmd newID) renamed)) := by
  have hterminates : Renames env s cmd newID →
      ∃ renamed, Displaces env s cmd (target env cmd newID) renamed := by
    rintro ⟨fuel, s', hupdate, -⟩
    exact exists_displaces hempty hupdate
  refine ⟨?_, hterminates, fun hgenerated => ⟨hterminates, ?_⟩⟩
  · rintro ⟨renamed, hdisplaces, htail⟩ hfirst
    exact renames_of_displaces hempty hinj hs hcmd hdisplaces htail hfirst
  · rintro ⟨renamed, hdisplaces⟩
    have htail : cmd ∉ renamed.tail := by
      rw [hgenerated] at hdisplaces
      exact hdisplaces.not_mem_tail
    refine renames_of_displaces hempty hinj hs hcmd hdisplaces htail fun found hfound heq => ?_
    exact hinj (heq.trans hgenerated)

/-! ### Two commands -/

/-- Two commands with objects of their own, whose generated ids are 1 and 2. -/
def twoCommands : Commands Bool Bool Bool ℕ where
  actionAndArgs cmd := cmd
  value actionAndArgs := actionAndArgs
  generate action := if action then 2 else 1
  empty := 0

/-- A map of the two commands with the ids `first` and `second`, and a key chord for each. -/
def twoMap (first second : ℕ) : ActionMap Bool ℕ Bool where
  id cmd := if cmd then second else first
  commands i := if i = first then some false else if i = second then some true else none
  keys key := some (if key then second else first)

theorem injective_twoCommands : Function.Injective twoCommands.generate := by decide

theorem twoCommands_ne_empty : ∀ a, twoCommands.generate a ≠ twoCommands.empty := by decide

theorem stored_twoMap (first second : ℕ) : (twoMap first second).Stored := by
  intro i cmd hcmd
  dsimp only [twoMap] at hcmd ⊢
  split_ifs at hcmd with hfirst hsecond
  · obtain rfl := Option.some.inj hcmd
    exact hfirst.symm
  · obtain rfl := Option.some.inj hcmd
    exact hsecond.symm

/-- The first command takes the id that the second one holds. -/
theorem renames_twoMap : Renames twoCommands (twoMap 3 1) false 0 :=
  ((renames_iff twoCommands injective_twoCommands twoCommands_ne_empty (twoMap 3 1)
    (stored_twoMap 3 1) false ⟨3, rfl⟩ 0).2.2 rfl).mpr
    ⟨[false, true], .held (by decide) (rfl : _ = some true) (by decide) (.free (by decide) rfl)⟩

/-- Two commands that hold each other's generated id are displaced in turn forever. -/
theorem not_renames_twoMap : (twoMap 2 1).Stored ∧ (twoMap 2 1).Has false ∧
    (∀ fuel, updateCommandID twoCommands fuel (twoMap 2 1) false 0 = none) ∧
      ¬ Renames twoCommands (twoMap 2 1) false 0 := by
  have hends : ¬ ∃ renamed, Displaces twoCommands (twoMap 2 1) false 1 renamed := by
    rintro ⟨renamed, hdisplaces⟩
    have htail : false ∉ renamed.tail := hdisplaces.not_mem_tail
    cases hdisplaces with
    | same h => exact absurd h (by decide)
    | free _ hfree => exact absurd hfree nofun
    | shared _ hfound heq =>
      obtain rfl := Option.some.inj hfound
      exact absurd heq (by decide)
    | held _ hfound _ hnext =>
      obtain rfl := Option.some.inj hfound
      cases hnext with
      | same h => exact absurd h (by decide)
      | free _ hfree => exact absurd hfree nofun
      | shared _ hfound heq =>
        obtain rfl := Option.some.inj hfound
        exact absurd heq (by decide)
      | held _ hfound _ hnext =>
        obtain rfl := Option.some.inj hfound
        cases hnext with
        | same h => exact absurd h (by decide)
        | free _ hfree => exact absurd hfree nofun
        | shared _ hfound heq | held =>
          exact htail (List.mem_cons_of_mem _ List.mem_cons_self)
  refine ⟨stored_twoMap 2 1, ⟨2, rfl⟩, fun fuel => ?_, ?_⟩
  · refine Option.eq_none_iff_forall_ne_some.mpr fun s' hupdate => hends ?_
    exact exists_displaces twoCommands_ne_empty hupdate
  · rintro ⟨fuel, s', hupdate, -⟩
    exact hends (exists_displaces twoCommands_ne_empty hupdate)

end ActionMap

end IntelligentTerminal.Settings
