import MusicComparer.Server.Copies

/-!
# Where credentials come from

Every version of a session has either no credentials at all or those of the one answer with which
a callback created it. No handler writes a token or a user name, so the invariant survives stale
writes: an older version of a session is a version with the same origin.
-/

namespace MusicComparer.Server

open MusicComparer.Js MusicComparer.Upstream MusicComparer.System

variable {ν : Type} [JsNumber ν] {lower : JsString → JsString} {keys : ApiKeys}
  {w w' : World ν} {act : Action ν}

/-- A session without credentials that is not logged in, or one with the token and perhaps the
user name of the answer that created it. -/
def Provenance (log : List (Event ν)) (sid : Nat) (s : Session) : Prop :=
  s.loggedin = false ∧ s.token = none ∧ s.username = none ∨
    ∃ rid a, .created rid sid a ∈ log ∧ s.token = some a.key ∧
      (s.username = some a.name ∨ s.username = none)

/-- The session was created by this callback with this answer of Last.fm, and by no other. -/
def CreatedBy (log : List (Event ν)) (rid sid : Nat) (a : Answer ν) : Prop :=
  .answered rid a ∈ log ∧ .created rid sid a ∈ log ∧
    ∀ rid' a', .created rid' sid a' ∈ log → rid' = rid ∧ a' = a

omit [JsNumber ν] in
/-- No route changes the token or the user name. -/
theorem Kind.handle_credentials (kind : Kind) (s : Session) :
    (kind.handle s).1.token = s.token ∧ (kind.handle s).1.username = s.username := by
  cases kind with
  | logout | callback | root => exact ⟨rfl, rfl⟩
  | login =>
    simp only [Kind.handle, Session.login]
    split <;> exact ⟨rfl, rfl⟩
  | application =>
    simp only [Kind.handle]
    split <;> exact ⟨rfl, rfl⟩

/-- A session without credentials is not logged in by any route. -/
theorem Kind.handle_loggedin (kind : Kind) {s : Session} (hl : s.loggedin = false)
    (ht : s.token = none) : (kind.handle s).1.loggedin = false := by
  have hc : s.hasCredentials = false := by simp [Session.hasCredentials, Session.truthy, ht]
  cases kind with
  | logout => rfl
  | callback | root => exact hl
  | login => simpa [Kind.handle, Session.login, hc] using hl
  | application => simp [Kind.handle, hl, Session.denied]

private theorem provenance_handle {log : List (Event ν)} (kind : Kind) {sid : Nat} {s : Session}
    (h : Provenance log sid s) : Provenance log sid (kind.handle s).1 := by
  obtain ⟨ht, hu⟩ := kind.handle_credentials s
  rcases h with ⟨h₁, h₂, h₃⟩ | ⟨rid, a, hc, h₂, h₃⟩
  · exact Or.inl ⟨kind.handle_loggedin h₁ h₂, ht.trans h₂, hu.trans h₃⟩
  · rw [← hu] at h₃
    exact Or.inr ⟨rid, a, hc, ht.trans h₂, h₃⟩

/-- The invariant of the runs: versions with their origin, and the bookkeeping that makes the
origin unique. -/
structure Sound (w : World ν) : Prop where
  sessions : EverySession (Provenance w.log) w
  queued : ∀ rid sid a, .destroy rid sid a ∈ w.appQueue → .answered rid a ∈ w.log
  answered : ∀ rid sid a, .created rid sid a ∈ w.log → .answered rid a ∈ w.log
  minted : ∀ rid sid a, .created rid sid a ∈ w.log → sid < w.nextSid
  checking : ∀ rid q, w.requests rid = some q → q.phase = .awaitToken ∨ q.phase = .awaitList →
    q.session.hasCredentials = true
  unique : ∀ rid rid' sid a a', .created rid sid a ∈ w.log → .created rid' sid a' ∈ w.log →
    rid' = rid ∧ a' = a

/-- Only a session with credentials is checked. -/
private theorem hasCredentials_of_request {kind : Kind} {sid : Nat} {s : Session}
    (h : (kind.request sid s).phase = .awaitToken ∨ (kind.request sid s).phase = .awaitList) :
    (kind.request sid s).session.hasCredentials = true := by
  cases kind with
  | logout | login | callback | root => simp [Kind.request, Kind.handle] at h
  | application =>
    simp only [Kind.request, Kind.handle] at h ⊢
    split
    · next hl =>
      rw [if_pos hl] at h
      by_cases hc : s.hasCredentials = true
      · exact hc
      · simp [hc] at h
    · next hl => simp [hl] at h

private theorem sound_init : Sound (World.init : World ν) := by
  constructor
  · exact everySession_init _
  all_goals
    intros
    contradiction

/-- No two callbacks create the same session: the identifier of a new one was not in use. -/
private theorem unique_step (hw : Sound w) (h : Transition lower keys w act w') {rid rid' sid : Nat}
    {a a' : Answer ν} (hc : .created rid sid a ∈ w'.log) (hc' : .created rid' sid a' ∈ w'.log) :
    rid' = rid ∧ a' = a := by
  have hfresh : ∀ rid sid a, .created rid sid a ∈ w.log → sid ≠ w.nextSid := by
    intro rid sid a hc he
    have := hw.minted rid sid a hc
    omega
  rcases h.created hc with hc | ⟨hsid, -, old, cs, hq⟩
  · rcases h.created hc' with hc' | ⟨hsid, -, -⟩
    · exact hw.unique rid rid' sid a a' hc hc'
    · exact absurd hsid (hfresh rid sid a hc)
  · rcases h.created hc' with hc' | ⟨-, -, old', cs', hq'⟩
    · exact absurd hsid (hfresh rid' sid a' hc')
    · rw [hq] at hq'
      cases hq'
      exact ⟨rfl, rfl⟩

/-- Every step keeps the invariant. -/
theorem sound_step (hw : Sound w) (h : Transition lower keys w act w') : Sound w' := by
  constructor
  · refine h.everySession hw.sessions ?_ ?_ ?_ ?_ ?_
    · rintro sid s (hp | ⟨rid, a, hc, hp⟩)
      · exact Or.inl hp
      · exact Or.inr ⟨rid, a, h.mem_log hc, hp⟩
    · exact fun sid ↦ Or.inl ⟨rfl, rfl, rfl⟩
    · exact fun kind sid s hp ↦ provenance_handle kind hp
    · rintro _ sid _ s - (⟨h₁, h₂, -⟩ | ⟨rid, a, hc, h₂, -⟩)
      · exact Or.inl ⟨h₁, h₂, rfl⟩
      · exact Or.inr ⟨rid, a, hc, h₂, Or.inr rfl⟩
    · exact fun rid sid a hc ↦ Or.inr ⟨rid, a, hc, rfl, Or.inl rfl⟩
  · intro rid sid a hd
    rcases h.queuedDestroy hd with hd | hd
    · exact h.mem_log (hw.queued rid sid a hd)
    · exact hd
  · intro rid sid a hc
    rcases h.created hc with hc | ⟨-, -, old, cs, hq⟩
    · exact h.mem_log (hw.answered rid sid a hc)
    · apply h.mem_log
      apply hw.queued rid old a
      rw [hq]
      exact List.mem_cons_self
  · intro rid sid a hc
    rcases h.created hc with hc | ⟨rfl, hn, -⟩
    · exact Nat.lt_of_lt_of_le (hw.minted rid sid a hc) h.nextSid_le
    · omega
  · intro rid q' hq' hp'
    cases h.held hq' with
    | kept q hq => exact hw.checking rid q' hq hp'
    | started kind cookie sid s ha hr hn hs => exact hasCredentials_of_request hp'
    | moved q phase hq hp =>
      rcases hp with ⟨hp, -⟩ | hp
      · exact hw.checking rid q hq (Or.inl hp)
      · rcases hp with ⟨-, rfl⟩ | rfl | rfl <;> simp at hp'
    | rejected q next ha hq hp hl => simp at hp'
    | created q a hq hk hl hn => simp at hp'
  · intro rid rid' sid a a' hc hc'
    exact unique_step hw h hc hc'

/-- Every reachable state is sound. -/
theorem sound_of_run {as : List (Action ν)} (h : run (step lower keys) World.init as = some w) :
    Sound w :=
  run_induction (fun _ _ _ hs hstep ↦ sound_step hs (transition_of_step hstep)) sound_init h

/-- In every reachable state, a stored session that is logged in has a token; its token and its
user name are the key and the name of the one answer with which a callback created it. A session
that no callback created is not logged in. -/
theorem credentials_of_callback {as : List (Action ν)}
    (h : run (step lower keys) World.init as = some w) {sid : Nat} {s : Session}
    (hs : w.store sid = some s) :
    (s.loggedin = true → s.token.isSome = true) ∧
      (∀ t, s.token = some t → ∃ rid a, CreatedBy w.log rid sid a ∧ t = a.key) ∧
      (∀ u, s.username = some u → ∃ rid a, CreatedBy w.log rid sid a ∧ u = a.name) ∧
      (s.loggedin = true → ∃ rid a, CreatedBy w.log rid sid a) := by
  have hw := sound_of_run h
  rcases hw.sessions.stored sid s hs with ⟨hl, ht, hu⟩ | ⟨rid, a, hc, ht, hu⟩
  · refine ⟨?_, ?_, ?_, ?_⟩
    · intro hl'
      rw [hl] at hl'
      cases hl'
    · intro t ht'
      rw [ht] at ht'
      cases ht'
    · intro u hu'
      rw [hu] at hu'
      cases hu'
    · intro hl'
      rw [hl] at hl'
      cases hl'
  · have hby : CreatedBy w.log rid sid a :=
      ⟨hw.answered rid sid a hc, hc, fun rid' a' hc' ↦ hw.unique rid rid' sid a a' hc hc'⟩
    refine ⟨?_, ?_, ?_, fun _ ↦ ⟨rid, a, hby⟩⟩
    · intro _
      rw [ht]
      rfl
    · intro t ht'
      rw [ht, Option.some_inj] at ht'
      exact ⟨rid, a, hby, ht'.symm⟩
    · intro u hu'
      rcases hu with hu | hu
      · rw [hu, Option.some_inj] at hu'
        exact ⟨rid, a, hby, hu'.symm⟩
      · rw [hu] at hu'
        cases hu'

/-- The answer of Last.fm for user `ann` with session key `k1`. -/
def ann : Answer Whole :=
  (Answer.ofBody (js "\x7b\"session\":\x7b\"name\":\"ann\",\"key\":\"k1\"\x7d\x7d")).get
    (by decide +kernel)

/-- The answer of Last.fm for user `ann` with session key `k2`. -/
def annAgain : Answer Whole :=
  (Answer.ofBody (js "\x7b\"session\":\x7b\"name\":\"ann\",\"key\":\"k2\"\x7d\x7d")).get
    (by decide +kernel)

/-- A callback from its start to the execution of its last command. -/
def completeCallback (rid cookie : Nat) (a : Answer Whole) : List (Action Whole) :=
  [.start (.callback true) cookie, .answer rid a, .execApp, .execApp, .finish rid, .execApp]

/-- The state after `ann` has logged in. -/
def annLoggedIn : World Whole :=
  (run (step LowerCase.ascii.lower ⟨[], []⟩) World.init (completeCallback 0 0 ann)).getD World.init

/-- The session created for `ann` is logged in with her credentials. -/
theorem credentials_of_callback_ann :
    annLoggedIn.store 1 = some (Session.created ann) ∧
      ∃ rid a, CreatedBy annLoggedIn.log rid 1 a ∧ ann.key = a.key := by
  have hs : annLoggedIn.store 1 = some (Session.created ann) := by decide +kernel
  have hr : run (step LowerCase.ascii.lower ⟨[], []⟩) World.init (completeCallback 0 0 ann) =
      some annLoggedIn := rfl
  exact ⟨hs, (credentials_of_callback hr hs).2.1 ann.key rfl⟩

end MusicComparer.Server
