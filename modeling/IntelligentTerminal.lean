import IntelligentTerminal.Buffer.CharToColumn
import IntelligentTerminal.Buffer.ClearScrollback
import IntelligentTerminal.Buffer.ReflowLines
import IntelligentTerminal.Sessions.RegistryLate
import IntelligentTerminal.Sessions.NativeEpochs
import IntelligentTerminal.Sessions.NativeListing
import IntelligentTerminal.Sessions.ResumeFailure
import IntelligentTerminal.Sessions.Agreement
import IntelligentTerminal.Sessions.Mirror
import IntelligentTerminal.Turns.SingleFlight
import IntelligentTerminal.Wta.RetirementOnce
import IntelligentTerminal.Panes.PaneClose
import IntelligentTerminal.Panes.SessionVariables
import IntelligentTerminal.Panes.Replay
import IntelligentTerminal.Panes.PaneText
import IntelligentTerminal.Wta.Supervision
import IntelligentTerminal.RichTab.DirectoryFresh
import IntelligentTerminal.RichTab.NoLostRefresh
import IntelligentTerminal.Buffer.RleIterator
import IntelligentTerminal.Buffer.AttributeRuns
import IntelligentTerminal.Buffer.HyperlinkRuns
import IntelligentTerminal.Buffer.SerializeReplay
import IntelligentTerminal.Buffer.FitText
import IntelligentTerminal.Buffer.FastPath
import IntelligentTerminal.Buffer.WordSelection
import IntelligentTerminal.Buffer.MarkCommands
import IntelligentTerminal.Buffer.ReflowProgress
import IntelligentTerminal.Text.GraphemeInverse
import IntelligentTerminal.Buffer.BlinkRegion
import IntelligentTerminal.Til.ParseInteger
import IntelligentTerminal.Til.CommandLine
import IntelligentTerminal.Til.FlatSet
import IntelligentTerminal.Vt.Base64
import IntelligentTerminal.Vt.DcsIntroducer
import IntelligentTerminal.Vt.CsiParameters
import IntelligentTerminal.Vt.ParserBounds
import IntelligentTerminal.Proposals.Expiry
import IntelligentTerminal.Diff.Preview
import IntelligentTerminal.Editor.VerticalMove
import IntelligentTerminal.Editor.InputViewport
import IntelligentTerminal.Editor.Recall
import IntelligentTerminal.Editor.QueueOrder
import IntelligentTerminal.Selection.Highlight
import IntelligentTerminal.Tabs.Navigation
import IntelligentTerminal.Usage.ContextPercentage
import IntelligentTerminal.Fzf.FuzzyMatch
import IntelligentTerminal.Types.Viewport
import IntelligentTerminal.Prompts.UserRequest
import IntelligentTerminal.Settings.ActionMap
import IntelligentTerminal.Adapter.CursorInLine
