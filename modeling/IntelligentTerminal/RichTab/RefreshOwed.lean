import IntelligentTerminal.RichTab.BrokerSystem

/-!
# Every invalidation is followed by a refresh

A call that gives the state of a provider a new generation, or changes what the provider would be
asked with, still owes a refresh that asks it. Otherwise the session is undisturbed for that
provider: its state and its request are the same, and no field has become visible.
-/

namespace IntelligentTerminal.RichTab

namespace RefreshCall

variable {packageRoot : Path} {call : RefreshCall} {p : Registration}

end RefreshCall

/-- For a provider, a session asks for the same and shows at most the same, with the same state. -/
structure Broker.Undisturbed (b b' : Broker) (p : Registration) (session session' : SessionState) :
    Prop where
  callbacks : ∀ a ∈ session'.callbacks, a ∈ session.callbacks
  sessionIncarnation : session'.sessionIncarnation = session.sessionIncarnation
  state : session'.providers.lookup p.manifest.id = session.providers.lookup p.manifest.id
  workingDirectory : session'.context.workingDirectory = session.context.workingDirectory
  authoritative : session'.context.workingDirectoryAuthoritative =
    session.context.workingDirectoryAuthoritative
  shellType : session'.context.shellType = session.context.shellType
  contextRevision : session'.contextRevision = session.contextRevision
  fields : b'.requestFields session' p = b.requestFields session p
  visible : b'.visibleFieldsForSession session' p ⊆ b.visibleFieldsForSession session p

/-- Every session that somebody is attached to is undisturbed for a provider, or a refresh is owed
that asks the provider. -/
def Locked.Covers (b : Broker) (out : Locked) (p : Registration) : Prop :=
  ∀ sid session', out.broker.sessions.lookup sid = some session' → session'.callbacks ≠ [] →
    (∃ call ∈ out.refreshes, call.sessionId = sid ∧
      (call.activation b.packageRoot p).isSome) ∨
    ∃ session, b.sessions.lookup sid = some session ∧
      b.Undisturbed out.broker p session session'

namespace Broker

variable {b : Broker} {p : Registration} {sid : String} {session session' : SessionState} {g : ℕ}
  {b' : Broker} {out : Locked}

/-- The providers, the default selection and the constants of the process are the same. -/
structure SameSettings (b b' : Broker) : Prop where
  packageRoot : b'.packageRoot = b.packageRoot
  gitBinary : b'.gitBinary = b.gitBinary
  providers : b'.providers = b.providers
  visibleFields : b'.visibleFields = b.visibleFields

theorem SameSettings.requestFields (h : b.SameSettings b') (session : SessionState)
    (p : Registration) : b'.requestFields session p = b.requestFields session p := by
  simp only [Broker.requestFields, h.packageRoot, h.gitBinary]

theorem SameSettings.visibleFieldsForSession (h : b.SameSettings b')
    (session : SessionState) (p : Registration) :
    b'.visibleFieldsForSession session p = b.visibleFieldsForSession session p := by
  simp only [Broker.visibleFieldsForSession, selection, h.visibleFields]

theorem SameSettings.undisturbed (h : b.SameSettings b') (p : Registration)
    (session : SessionState) : b.Undisturbed b' p session session :=
  ⟨fun _ ha => ha, rfl, rfl, rfl, rfl, rfl, rfl, h.requestFields session p,
    fun _ hf => h.visibleFieldsForSession session p ▸ hf⟩

theorem Undisturbed.of_same (h : b.Undisturbed b p session session')
    (hb : b.SameSettings b') : b.Undisturbed b' p session session' :=
  ⟨h.callbacks, h.sessionIncarnation, h.state, h.workingDirectory, h.authoritative, h.shellType,
    h.contextRevision, (hb.requestFields session' p).trans h.fields,
    fun _ hf => h.visible (hb.visibleFieldsForSession session' p ▸ hf)⟩

end Broker

end IntelligentTerminal.RichTab
