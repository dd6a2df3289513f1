import MusicComparer.Server.InFlight
import MusicComparer.Server.Provenance

/-!
# What a logout leaves behind

`app.js:66–69` removes `loggedin` from the session as the request read it, and writes the whole
session only if that changed it. Two things can undo a logout: a logout that read a session without
`loggedin` writes nothing over what an overlapping login stored; and a `GET /application` that read
the session before the logout and is rejected after it (`index.js:52`) writes its old version back.
-/

namespace MusicComparer.Server

open MusicComparer.Js MusicComparer.Upstream MusicComparer.System

variable {ν : Type} [JsNumber ν] {lower : JsString → JsString} {keys : ApiKeys}
  {w w' w'' : World ν} {act : Action ν}

/-- The routes that set `loggedin`. -/
def Kind.authenticates : Kind → Bool
  | login | callback _ => true
  | logout | application | root => false

/-- The other routes leave the session as it is or not logged in. -/
theorem Kind.handle_of_not_authenticates {kind : Kind} (h : kind.authenticates = false)
    (s : Session) : (kind.handle s).1.loggedin = false ∨ (kind.handle s).1 = s := by
  cases kind with
  | login | callback => cases h
  | logout => exact Or.inl rfl
  | root => exact Or.inr rfl
  | application =>
    by_cases hl : s.loggedin = true
    · simp [Kind.handle, hl]
    · simp [Kind.handle, hl, Session.denied]

/-- A request that changes the session other than by taking `loggedin` away is one that sets it or
one that was rejected. A logout holds a session without it and waits for nothing but its write. -/
structure Restrained (log : List (Event ν)) (rid : Nat) (q : PageRequest) : Prop where
  held : q.kind.authenticates = true ∨ q.session.loggedin = false ∨ q.session = q.loaded ∨
    ∃ next, .rejected rid q.sid next ∈ log
  logout : q.kind = .logout → q.session.loggedin = false ∧ (q.phase = .ended ∨ q.phase = .saving)

private theorem restrained_step (hw : ∀ rid q, w.requests rid = some q → Restrained w.log rid q)
    (h : Transition lower keys w act w') {rid : Nat} {q' : PageRequest}
    (hq' : w'.requests rid = some q') : Restrained w'.log rid q' := by
  have hold : ∀ q, w.requests rid = some q → q.kind.authenticates = true ∨
      q.session.loggedin = false ∨ q.session = q.loaded ∨
        ∃ next, .rejected rid q.sid next ∈ w'.log := by
    intro q hq
    refine (hw rid q hq).held.imp_right (Or.imp_right (Or.imp_right ?_))
    rintro ⟨next, hr⟩
    exact ⟨next, h.mem_log hr⟩
  cases h.held hq' with
  | kept q hq => exact ⟨hold _ hq, (hw rid _ hq).logout⟩
  | started kind cookie sid s ha hr hn hs =>
    constructor
    · cases hk : kind.authenticates with
      | true => exact Or.inl hk
      | false =>
        rcases Kind.handle_of_not_authenticates hk s with hl | he
        · exact Or.inr (Or.inl hl)
        · exact Or.inr (Or.inr (Or.inl he))
    · intro hk
      have hk : kind = .logout := hk
      subst hk
      exact ⟨rfl, Or.inl rfl⟩
  | moved q phase hq hp =>
    refine ⟨hold q hq, fun hk ↦ ?_⟩
    obtain ⟨hl, hp'⟩ := (hw rid q hq).logout hk
    refine ⟨hl, ?_⟩
    rcases hp with ⟨hp, -⟩ | ⟨hp, -⟩ | hp | hp
    · rw [hp] at hp'
      simp at hp'
    · rw [hp] at hp'
      simp at hp'
    · exact Or.inl hp
    · exact Or.inr hp
  | rejected q next ha hq hp hl =>
    refine ⟨Or.inr (Or.inr (Or.inr ⟨next, hl⟩)), fun hk ↦ ?_⟩
    exact ⟨((hw rid q hq).logout hk).1, Or.inl rfl⟩
  | created q a hq hk hl hn =>
    have hk' : q.kind.authenticates = true := by
      rw [hk]
      rfl
    refine ⟨Or.inl hk', fun hk' ↦ ?_⟩
    have hk' : q.kind = .logout := hk'
    rw [hk] at hk'
    cases hk'

/-- Every request in flight in a reachable state is restrained. -/
private theorem restrained_of_run {as : List (Action ν)}
    (h : run (step lower keys) World.init as = some w) :
    ∀ rid q, w.requests rid = some q → Restrained w.log rid q := by
  refine run_induction (I := fun w : World ν ↦
    ∀ rid q, w.requests rid = some q → Restrained w.log rid q) ?_ ?_ h
  · intro w act w' hw hstep rid q
    exact restrained_step hw (transition_of_step hstep)
  · intro rid q hq
    cases hq

/-- The step starts no login or callback with this session and rejects no request that holds it. -/
def Undisturbed (sid : Nat) (w : World ν) : Action ν → Prop
  | .start kind cookie => cookie = sid → kind.authenticates = false
  | .tokenReply rid | .listReply rid => ∀ q ∈ w.requests rid, q.sid = sid → ¬ Rejecting w q
  | _ => True

/-- No version of the session that is stored or may still be written is logged in. -/
structure Quiet (sid : Nat) (w : World ν) : Prop where
  minted : sid < w.nextSid
  stored : ∀ s, w.store sid = some s → s.loggedin = false
  queued : ∀ rid s, .save rid sid s ∈ w.appQueue → s.loggedin = false
  held : ∀ rid q, w.requests rid = some q → q.sid = sid →
    q.session.loggedin = false ∨ q.session = q.loaded

private theorem quiet_held_step {sid : Nat} (hw : Quiet sid w)
    (h : Transition lower keys w act w') (hact : Undisturbed sid w act) {rid : Nat}
    {q' : PageRequest} (hq' : w'.requests rid = some q') (hsid : q'.sid = sid) :
    q'.session.loggedin = false ∨ q'.session = q'.loaded := by
  cases h.held hq' with
  | kept q hq => exact hw.held rid _ hq hsid
  | started kind cookie sid' s ha hr hn hs =>
    rcases hs with ⟨hs, rfl⟩ | ⟨rfl, -⟩
    · rw [ha] at hact
      exact Kind.handle_of_not_authenticates (hact hsid) s
    · exact Or.inl (Kind.handle_loggedin kind rfl rfl)
  | moved q phase hq hp => exact hw.held rid q hq hsid
  | rejected q next ha hq hp hl =>
    rcases ha with rfl | rfl
    · exact absurd hp (hact q hq hsid)
    · exact absurd hp (hact q hq hsid)
  | created q a hq hk hl hn =>
    have := hw.minted
    have hsid : w.nextSid = sid := hsid
    omega

private theorem quiet_step {sid : Nat} (hw : Quiet sid w) (hact : Undisturbed sid w act)
    (h : Transition lower keys w act w') : Quiet sid w' := by
  constructor
  · exact Nat.lt_of_lt_of_le hw.minted h.nextSid_le
  · intro s hs
    rcases h.stored hs with hs | ⟨rid, cs, hc⟩
    · exact hw.stored s hs
    · apply hw.queued rid s
      rw [hc]
      exact List.mem_cons_self
  · intro rid s hs
    rcases h.queued hs with hs | ⟨q, hq, hsid, rfl, hn⟩
    · exact hw.queued rid s hs
    · exact (hw.held rid q hq hsid).resolve_right hn
  · intro rid q hq hsid
    exact quiet_held_step hw h hact hq hsid

/-- How a request can come to its end. -/
private theorem ended_cases (h : Transition lower keys w act w') {rid : Nat} {q : PageRequest}
    (hq : w.requests rid = some q) (hdone : w'.requests rid = none) :
    q.phase = .awaitSession ∨ q.session = q.loaded ∧ w'.store = w.store ∨
      (∃ sid a cs, w.appQueue = .destroy rid sid a :: cs) ∨
      (∃ sid s cs, w.appQueue = .save rid sid s :: cs ∧ w'.store sid = some s) ∨ act = .stop := by
  have hkept : w.requests rid ≠ none := by simp [hq]
  have hchanged : ∀ rid' q', Function.update w.requests rid' (some q') rid ≠ none := by
    intro rid' q' hu
    by_cases he : rid = rid'
    · rw [he, Function.update_self] at hu
      cases hu
    · rw [Function.update_of_ne he] at hu
      exact hkept hu
  have hended : ∀ rid', Function.update w.requests rid' none rid = none → rid' = rid := by
    intro rid' hu
    by_contra hne
    rw [Function.update_of_ne (Ne.symm hne)] at hu
    exact hkept hu
  cases h with
  | noAnswer rid' q' hq' hp =>
    obtain rfl := hended rid' hdone
    rw [hq, Option.some_inj] at hq'
    exact Or.inl (hq' ▸ hp)
  | finishUnchanged rid' q' hq' hp hs =>
    obtain rfl := hended rid' hdone
    rw [hq, Option.some_inj] at hq'
    subst hq'
    exact Or.inr (Or.inl ⟨hs, rfl⟩)
  | execDestroyLate rid' sid a cs hc =>
    obtain rfl := hended rid' hdone
    exact Or.inr (Or.inr (Or.inl ⟨sid, a, cs, hc⟩))
  | execSave rid' sid s cs hc =>
    obtain rfl := hended rid' hdone
    exact Or.inr (Or.inr (Or.inr (Or.inl ⟨sid, s, cs, hc, Function.update_self ..⟩)))
  | stop => exact Or.inr (Or.inr (Or.inr (Or.inr rfl)))
  | startKnown | startNew | answer | tokenAccepted | tokenRejected | listed | listRejected
  | anonymous | finishChanged | execDestroy => exact absurd hdone (hchanged _ _)
  | _ => exact absurd hdone hkept

/-- When a logout completes, the stored session is not logged in, provided the logout read a
logged-in session or the stored one is not logged in anyway. -/
private theorem stored_of_logout (hlink : Linked w) {rid : Nat} {q : PageRequest}
    (hq : w.requests rid = some q) (hr : Restrained w.log rid q) (hk : q.kind = .logout)
    (h : Transition lower keys w act w') (hact : act ≠ .stop) (hdone : w'.requests rid = none)
    (hread : q.loaded.loggedin = true ∨ ∀ s, w.store q.sid = some s → s.loggedin = false)
    {s : Session} (hs : w'.store q.sid = some s) : s.loggedin = false := by
  obtain ⟨hl, hp⟩ := hr.logout hk
  rcases ended_cases h hq hdone with
    hp' | ⟨hsame, hstore⟩ | ⟨sid, a, cs, hc⟩ | ⟨sid, s', cs, hc, hstore⟩ | hstop
  · rw [hp'] at hp
    simp at hp
  · -- nothing was written: the session as read was not logged in
    rw [hsame] at hl
    rw [hstore] at hs
    rcases hread with hread | hread
    · rw [hl] at hread
      cases hread
    · exact hread s hs
  · obtain ⟨q', hq', ha⟩ := hlink.awaited (.destroy rid sid a) (by simp [hc]) rid rfl
    rw [hq, Option.some_inj] at hq'
    subst hq'
    have ha : q.phase = .regenerating := ha
    rw [ha] at hp
    simp at hp
  · obtain ⟨q', hq', -, rfl, rfl, -⟩ := hlink.awaited (.save rid sid s') (by simp [hc]) rid rfl
    rw [hq, Option.some_inj] at hq'
    subst hq'
    rw [hstore, Option.some_inj] at hs
    rw [← hs]
    exact hl
  · exact absurd hstop hact

/-- After a logout has completed, in every run in which no login or callback of the session is in
flight or starts, the stored session is never logged in again, provided: the logout read a
logged-in session, or the stored one was not logged in when it completed; and no request that
holds the session has been rejected while in flight or is rejected later. -/
theorem logout_is_final {as bs : List (Action ν)}
    (h : run (step lower keys) World.init as = some w) {rid : Nat} {q : PageRequest}
    (hq : w.requests rid = some q) (hk : q.kind = .logout)
    (hstep : step lower keys w act = some w') (hact : act ≠ .stop)
    (hdone : w'.requests rid = none)
    (hread : q.loaded.loggedin = true ∨ ∀ s, w.store q.sid = some s → s.loggedin = false)
    (hflight : ∀ rid' q', w'.requests rid' = some q' → q'.sid = q.sid →
      q'.kind.authenticates = false ∧ ∀ next, .rejected rid' q.sid next ∉ w'.log)
    (hc : Along (step lower keys) (Undisturbed q.sid) w' bs)
    (h' : run (step lower keys) w' bs = some w'') :
    ∀ s, w''.store q.sid = some s → s.loggedin = false := by
  have htr := transition_of_step hstep
  have hw' : run (step lower keys) World.init (as ++ [act]) = some w' :=
    run_append.mpr ⟨w, h, run_cons.mpr ⟨w', hstep, rfl⟩⟩
  have hlink' := linked_of_run hw'
  have hheld : ∀ rid' q', w'.requests rid' = some q' → q'.sid = q.sid →
      q'.session.loggedin = false ∨ q'.session = q'.loaded := by
    intro rid' q' hq' hsid
    obtain ⟨hauth, hrej⟩ := hflight rid' q' hq' hsid
    rcases (restrained_of_run hw' rid' q' hq').held with ha | hl | he | ⟨next, hr⟩
    · rw [hauth] at ha
      cases ha
    · exact Or.inl hl
    · exact Or.inr he
    · rw [hsid] at hr
      exact absurd hr (hrej next)
  have hquiet : Quiet q.sid w' := by
    constructor
    · exact Nat.lt_of_lt_of_le ((linked_of_run h).minted rid q hq) htr.nextSid_le
    · intro s hs
      exact stored_of_logout (linked_of_run h) hq (restrained_of_run h rid q hq) hk htr hact hdone
        hread hs
    · intro rid' s hs
      obtain ⟨q', hq', -, hsid, rfl, hn⟩ := hlink'.awaited _ hs rid' rfl
      exact (hheld rid' q' hq' hsid).resolve_right hn
    · exact hheld
  have hquiet' : Quiet q.sid w'' :=
    run_invariant (fun _ _ _ hs hact hst ↦ quiet_step hs hact (transition_of_step hst)) hquiet hc h'
  exact hquiet'.stored

/-- The state in which the logout of `ann`, logged in before, waits for its write. -/
def annLogsOut : World Whole :=
  (run (step LowerCase.ascii.lower ⟨[], []⟩) World.init
    (completeCallback 0 0 ann ++ [.start .logout 1, .finish 1])).getD World.init

/-- The state after it. -/
def annLoggedOut : World Whole := annLogsOut.execApp.getD annLogsOut

/-- She stays logged out when she asks for the application page afterwards. -/
theorem logout_is_final_ann : ∃ w'',
    run (step LowerCase.ascii.lower ⟨[], []⟩) annLoggedOut [.start .application 1] = some w'' ∧
      ∀ s, w''.store 1 = some s → s.loggedin = false := by
  have hr : run (step LowerCase.ascii.lower ⟨[], []⟩) World.init
      (completeCallback 0 0 ann ++ [.start .logout 1, .finish 1]) = some annLogsOut :=
    run_eq_getD World.init (by decide +kernel)
  have hs : step LowerCase.ascii.lower ⟨[], []⟩ annLogsOut .execApp = some annLoggedOut := by
    obtain ⟨w', hw'⟩ : ∃ w', annLogsOut.execApp = some w' :=
      Option.isSome_iff_exists.mp (by decide +kernel)
    rw [annLoggedOut, hw', Option.getD_some]
    exact hw'
  have hnone : ∀ rid' q', annLoggedOut.requests rid' ≠ some q' := by
    have hlt : ∀ rid' < annLoggedOut.nextRid, annLoggedOut.requests rid' = none := by
      decide +kernel
    have hr' : run (step LowerCase.ascii.lower ⟨[], []⟩) World.init
        ((completeCallback 0 0 ann ++ [.start .logout 1, .finish 1]) ++ [.execApp]) =
          some annLoggedOut :=
      run_append.mpr ⟨_, hr, run_cons.mpr ⟨_, hs, rfl⟩⟩
    intro rid' q' hq'
    rw [hlt rid' ((linked_of_run hr').numbered rid' q' hq')] at hq'
    cases hq'
  have hq : annLogsOut.requests 1 =
      some ⟨.logout, 1, .created ann, (Session.created ann).logout, .saving⟩ := by
    decide +kernel
  have hc : Along (step LowerCase.ascii.lower ⟨[], []⟩) (Undisturbed 1) annLoggedOut
      [.start .application 1] := ⟨fun _ ↦ rfl, fun _ _ ↦ trivial⟩
  exact ⟨_, rfl, logout_is_final hr hq rfl hs (by simp) (by decide +kernel) (Or.inl rfl)
    (fun rid' q' hq' ↦ absurd hq' (hnone rid' q')) hc rfl⟩

/-- The state in which the logout of `ann` waits for its write while her request for the
application page waits for the token check; her key has been replaced from another browser. -/
def annLogsOutLate : World Whole :=
  (run (step LowerCase.ascii.lower ⟨[], []⟩) World.init
    (completeCallback 0 0 ann ++ completeCallback 1 9 annAgain ++
      [.start .application 1, .start .logout 1, .finish 3])).getD World.init

/-- The logout completes with no login or callback in flight, and the session is logged in again
when the rejected request writes its version. -/
theorem logout_undone : ∃ as w' w'' s,
    run (step LowerCase.ascii.lower ⟨[], []⟩) World.init as = some annLogsOutLate ∧
      (annLogsOutLate.requests 3).map PageRequest.kind = some .logout ∧
      step LowerCase.ascii.lower ⟨[], []⟩ annLogsOutLate .execApp = some w' ∧
      w'.requests 3 = none ∧ (w'.store 1).map Session.loggedin = some false ∧
      (∀ rid < w'.nextRid, ∀ q ∈ w'.requests rid, q.kind.authenticates = false) ∧
      run (step LowerCase.ascii.lower ⟨[], []⟩) w' [.tokenReply 2, .finish 2, .execApp] = some w'' ∧
      w''.store 1 = some s ∧ s.loggedin = true := by
  obtain ⟨w', hw'⟩ : ∃ w', annLogsOutLate.execApp = some w' :=
    Option.isSome_iff_exists.mp (by decide +kernel)
  have he : w' = annLogsOutLate.execApp.getD annLogsOutLate := by rw [hw', Option.getD_some]
  subst he
  refine ⟨_, _, _, ⟨true, none, some ann.key, none⟩, run_eq_getD World.init (by decide +kernel),
    by decide +kernel, hw', by decide +kernel, by decide +kernel, by decide +kernel,
    run_eq_getD World.init (by decide +kernel), by decide +kernel, rfl⟩

end MusicComparer.Server
