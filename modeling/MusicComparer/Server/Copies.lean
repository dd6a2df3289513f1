import MusicComparer.Server.World

/-!
# Copies of a session

A session is stored, held by the requests that have read it, and queued for writing, all at the
same time and in different versions. Three lemmas say where the stored, the held and the queued
sessions of the next state come from; every invariant about sessions is proved from these.
-/

namespace MusicComparer.Server

open MusicComparer.Js MusicComparer.Upstream MusicComparer.Redis MusicComparer.Api

variable {ν : Type} [JsNumber ν] {lower : JsString → JsString} {keys : ApiKeys}
  {w w' : World ν} {act : Action ν}

/-- A stored session was stored before, or its write has just been executed. -/
theorem Transition.stored (h : Transition lower keys w act w') {sid : Nat} {s : Session}
    (hs : w'.store sid = some s) :
    w.store sid = some s ∨ ∃ rid cs, w.appQueue = .save rid sid s :: cs := by
  have hremoved : ∀ old, Function.update w.store old none sid = some s → w.store sid = some s := by
    intro old hu
    by_cases he : sid = old
    · rw [he, Function.update_self] at hu
      cases hu
    · rwa [Function.update_of_ne he] at hu
  cases h with
  | execDestroy rid old a cs q hc hq hk => exact Or.inl (hremoved old hs)
  | execDestroyLate rid old a cs hc => exact Or.inl (hremoved old hs)
  | expireSession old => exact Or.inl (hremoved old hs)
  | execSave rid old s' cs hc =>
    by_cases he : sid = old
    · subst he
      have hu : Function.update w.store sid (some s') sid = some s := hs
      rw [Function.update_self, Option.some_inj] at hu
      subst hu
      exact Or.inr ⟨rid, cs, hc⟩
    · have hu : Function.update w.store old (some s') sid = some s := hs
      rw [Function.update_of_ne he] at hu
      exact Or.inl hu
  | _ => exact Or.inl hs

/-- How a step changes the commands waiting on the connection of `app.js`. -/
inductive Waiting (w w' : World ν) (act : Action ν) : Prop where
  | kept (h : w'.appQueue = w.appQueue)
  | answered (rid : Nat) (a : Answer ν) (q : PageRequest) (ha : act = .answer rid a)
      (hq : w.requests rid = some q) (hp : q.phase = .awaitSession)
      (hq' : w'.requests rid = some { q with phase := .regenerating })
      (h : w'.appQueue = w.appQueue ++ [.set a, .destroy rid q.sid a])
      (hl : .answered rid a ∈ w'.log)
  | saved (rid : Nat) (q : PageRequest) (hq : w.requests rid = some q) (hp : q.phase = .ended)
      (hn : q.session ≠ q.loaded) (hq' : w'.requests rid = some { q with phase := .saving })
      (h : w'.appQueue = w.appQueue ++ [.save rid q.sid q.session])
  | executed (c : AppCommand ν) (h : w.appQueue = c :: w'.appQueue)
      (hl : ∀ a, c = .set a → .authenticated a ∈ w'.log)
  | lost (h : w'.appQueue = [])

/-- Every step changes the queue in one of these ways. -/
theorem Transition.waiting (h : Transition lower keys w act w') : Waiting w w' act := by
  cases h with
  | answer rid a q hq hp =>
    exact .answered rid a q rfl hq hp (Function.update_self ..) rfl List.mem_cons_self
  | finishChanged rid q hq hp hn => exact .saved rid q hq hp hn (Function.update_self ..) rfl
  | execSet a cs hc =>
    refine .executed _ hc ?_
    intro a' he
    cases he
    exact List.mem_cons_self
  | execDestroy rid sid a cs q hc hq hk =>
    refine .executed _ hc ?_
    intro a' he
    cases he
  | execDestroyLate rid sid a cs hc =>
    refine .executed _ hc ?_
    intro a' he
    cases he
  | execSave rid sid s cs hc =>
    refine .executed _ hc ?_
    intro a' he
    cases he
  | stop => exact .lost rfl
  | _ => exact .kept rfl

/-- A queued write was queued before, or a request with a changed session has just ended. -/
theorem Transition.queued (h : Transition lower keys w act w') {rid sid : Nat} {s : Session}
    (hs : .save rid sid s ∈ w'.appQueue) :
    .save rid sid s ∈ w.appQueue ∨
      ∃ q, w.requests rid = some q ∧ q.sid = sid ∧ q.session = s ∧ q.session ≠ q.loaded := by
  cases h.waiting with
  | kept hw =>
    rw [hw] at hs
    exact Or.inl hs
  | answered rid' a q ha hq hp hq' hw hl =>
    rw [hw] at hs
    exact Or.inl (by simpa using hs)
  | saved rid' q hq hp hn hq' hw =>
    rw [hw, List.mem_append, List.mem_singleton, AppCommand.save.injEq] at hs
    rcases hs with hs | ⟨rfl, rfl, rfl⟩
    · exact Or.inl hs
    · exact Or.inr ⟨q, hq, rfl, rfl, hn⟩
  | executed c hw hl =>
    rw [hw]
    exact Or.inl (List.mem_cons_of_mem c hs)
  | lost hw =>
    rw [hw] at hs
    cases hs

/-- A session has been created before, or by the callback whose removal command has just been
executed. -/
theorem Transition.created (h : Transition lower keys w act w') {rid sid : Nat} {a : Answer ν}
    (hs : .created rid sid a ∈ w'.log) :
    .created rid sid a ∈ w.log ∨ sid = w.nextSid ∧ w'.nextSid = w.nextSid + 1 ∧
      ∃ old cs, w.appQueue = .destroy rid old a :: cs := by
  cases h with
  | execDestroy rid' old a' cs q hc hq hk =>
    rcases List.mem_cons.mp hs with he | hs
    · cases he
      exact Or.inr ⟨rfl, rfl, old, cs, hc⟩
    · exact Or.inl hs
  | respond id request query reply e hs' he =>
    rcases List.mem_append.mp hs with hm | hm
    · obtain ⟨r, -, hr⟩ := List.mem_map.mp hm
      cases hr
    · exact Or.inl hm
  | tokenRejected rid' q hq hp ha =>
    have hm : .created rid sid a ∈ (.rejected rid' q.sid w.nextRid : Event ν) ::
        .checked rid' (q.session.username.getD []) _ :: w.log := hs
    simp only [List.mem_cons, reduceCtorEq, false_or] at hm
    exact Or.inl hm
  | answer | tokenAccepted | listed | listRejected | anonymous | execSet =>
    rcases List.mem_cons.mp hs with he | hs
    · cases he
    · exact Or.inl hs
  | _ => exact Or.inl hs

/-- A queued removal was queued before, or Last.fm has just answered. -/
theorem Transition.queuedDestroy (h : Transition lower keys w act w') {rid sid : Nat}
    {a : Answer ν} (hs : .destroy rid sid a ∈ w'.appQueue) :
    .destroy rid sid a ∈ w.appQueue ∨ .answered rid a ∈ w'.log := by
  cases h.waiting with
  | kept hw =>
    rw [hw] at hs
    exact Or.inl hs
  | answered rid' a' q ha hq hp hq' hw hl =>
    rw [hw] at hs
    simp only [List.mem_append, List.mem_cons, reduceCtorEq, List.not_mem_nil, or_false, false_or,
      AppCommand.destroy.injEq] at hs
    rcases hs with hs | ⟨rfl, rfl, rfl⟩
    · exact Or.inl hs
    · exact Or.inr hl
  | saved rid' q hq hp hn hq' hw =>
    rw [hw] at hs
    exact Or.inl (by simpa using hs)
  | executed c hw hl =>
    rw [hw]
    exact Or.inl (List.mem_cons_of_mem c hs)
  | lost hw =>
    rw [hw] at hs
    cases hs

/-- Request numbers are not taken back. -/
theorem Transition.nextRid_le (h : Transition lower keys w act w') : w.nextRid ≤ w'.nextRid := by
  cases h with
  | startKnown | startNew | post => exact Nat.le_succ _
  | _ => exact Nat.le_refl _

/-- Identifiers are not taken back. -/
theorem Transition.nextSid_le (h : Transition lower keys w act w') : w.nextSid ≤ w'.nextSid := by
  cases h with
  | startNew | execDestroy => exact Nat.le_succ _
  | _ => exact Nat.le_refl _

/-- A request that is being rejected: by the token check, or because the list cannot be read. -/
def Rejecting (w : World ν) (q : PageRequest) : Prop :=
  q.phase = .awaitToken ∧
      q.session.accepts ν (Redis.get w.redis (q.session.username.getD [])) = false ∨
    q.phase = .awaitList ∧ w.latestsearches = none

/-- Where a request of the next state comes from. -/
inductive Held (w w' : World ν) (act : Action ν) (rid : Nat) : PageRequest → Prop where
  | kept (q : PageRequest) (hq : w.requests rid = some q) : Held w w' act rid q
  | started (kind : Kind) (cookie sid : Nat) (s : Session) (ha : act = .start kind cookie)
      (hr : rid = w.nextRid) (hn : w'.nextRid = w.nextRid + 1)
      (hs : w.store sid = some s ∧ sid = cookie ∨
        s = .empty ∧ sid = w.nextSid ∧ w'.nextSid = w.nextSid + 1) :
      Held w w' act rid (kind.request sid s)
  | moved (q : PageRequest) (phase : Phase) (hq : w.requests rid = some q)
      (hp : q.phase = .awaitToken ∧ phase = .awaitList ∧
          q.session.accepts ν (Redis.get w.redis (q.session.username.getD [])) = true ∧
          .checked rid (q.session.username.getD [])
            (Redis.get w.redis (q.session.username.getD [])) ∈ w'.log ∨
        q.phase = .awaitSession ∧ phase = .regenerating ∨ phase = .ended ∨ phase = .saving) :
      Held w w' act rid { q with phase }
  | rejected (q : PageRequest) (next : Nat) (ha : act = .tokenReply rid ∨ act = .listReply rid)
      (hq : w.requests rid = some q) (hp : Rejecting w q)
      (hl : .rejected rid q.sid next ∈ w'.log) :
      Held w w' act rid { q with session := q.session.rejected, phase := .ended }
  | created (q : PageRequest) (a : Answer ν) (hq : w.requests rid = some q)
      (hk : q.kind = .callback true) (hl : .created rid w.nextSid a ∈ w'.log)
      (hn : w'.nextSid = w.nextSid + 1) :
      Held w w' act rid
        { q with sid := w.nextSid, loaded := .empty, session := .created a, phase := .ended }

private theorem held_of_update {rid rid' : Nat} {q' : PageRequest} {x : Option PageRequest}
    (h : Function.update w.requests rid' x rid = some q')
    (hx : ∀ q, x = some q → Held w w' act rid' q) : Held w w' act rid q' := by
  by_cases he : rid = rid'
  · subst he
    rw [Function.update_self] at h
    exact hx q' h
  · rw [Function.update_of_ne he] at h
    exact .kept q' h

private theorem held_none (rid : Nat) :
    ∀ q, (none : Option PageRequest) = some q → Held w w' act rid q := by
  intro q h
  cases h

private theorem held_some {rid : Nat} {q : PageRequest} (h : Held w w' act rid q) :
    ∀ q', some q = some q' → Held w w' act rid q' := by
  intro q' he
  cases he
  exact h

/-- Every request of the next state has such an origin. -/
theorem Transition.held (h : Transition lower keys w act w') {rid : Nat} {q' : PageRequest}
    (hq' : w'.requests rid = some q') : Held w w' act rid q' := by
  cases h with
  | startKnown kind cookie s hs =>
    exact held_of_update hq'
      (held_some (.started kind cookie cookie s rfl rfl rfl (Or.inl ⟨hs, rfl⟩)))
  | startNew kind cookie hs =>
    exact held_of_update hq'
      (held_some (.started kind cookie w.nextSid .empty rfl rfl rfl (Or.inr ⟨rfl, rfl, rfl⟩)))
  | answer rid' a q hq hp =>
    exact held_of_update hq' (held_some (.moved q _ hq (Or.inr (Or.inl ⟨hp, rfl⟩))))
  | tokenAccepted rid' q hq hp ha =>
    exact held_of_update hq' (held_some (.moved q _ hq (Or.inl ⟨hp, rfl, ha, List.mem_cons_self⟩)))
  | tokenRejected rid' q hq hp ha =>
    exact held_of_update hq'
      (held_some (.rejected q w.nextRid (Or.inl rfl) hq (Or.inl ⟨hp, ha⟩) List.mem_cons_self))
  | listed rid' q xs hq hp hl => exact held_of_update hq' (held_some (.moved q _ hq (by simp)))
  | listRejected rid' q hq hp hl =>
    exact held_of_update hq'
      (held_some (.rejected q w.nextRid (Or.inr rfl) hq (Or.inr ⟨hp, hl⟩) List.mem_cons_self))
  | anonymous rid' q hq hp => exact held_of_update hq' (held_some (.moved q _ hq (by simp)))
  | finishChanged rid' q hq hp hn => exact held_of_update hq' (held_some (.moved q _ hq (by simp)))
  | execDestroy rid' old a cs q hc hq hk =>
    exact held_of_update hq' (held_some (.created q a hq hk List.mem_cons_self rfl))
  | noAnswer rid' | finishUnchanged rid' | execDestroyLate rid' | execSave rid' =>
    exact held_of_update hq' (held_none rid')
  | stop => cases hq'
  | _ => exact .kept q' hq'

/-- Every version of every session, stored, held or queued, has property `P`. -/
structure EverySession (P : Nat → Session → Prop) (w : World ν) : Prop where
  stored : ∀ sid s, w.store sid = some s → P sid s
  loaded : ∀ rid q, w.requests rid = some q → P q.sid q.loaded
  held : ∀ rid q, w.requests rid = some q → P q.sid q.session
  queued : ∀ rid sid s, .save rid sid s ∈ w.appQueue → P sid s

/-- Nothing is stored, held or queued at the start. -/
theorem everySession_init (P : Nat → Session → Prop) : EverySession P (World.init : World ν) := by
  constructor
  · intro sid s h
    cases h
  · intro rid q h
    cases h
  · intro rid q h
    cases h
  · intro rid sid s h
    cases h

/-- A property of all versions is kept by a step when the empty session has it, what the handlers
do to a session keeps it, and the sessions that callbacks create have it. -/
theorem Transition.everySession {P P' : Nat → Session → Prop}
    (h : Transition lower keys w act w') (hw : EverySession P w)
    (hmono : ∀ sid s, P sid s → P' sid s) (hempty : ∀ sid, P' sid .empty)
    (hhandle : ∀ (kind : Kind) sid s, P' sid s → P' sid (kind.handle s).1)
    (hrejected : ∀ rid sid next s, .rejected rid sid next ∈ w'.log → P' sid s → P' sid s.rejected)
    (hcreated : ∀ rid sid (a : Answer ν), .created rid sid a ∈ w'.log → P' sid (.created a)) :
    EverySession P' w' := by
  have hrequest : ∀ rid q, w'.requests rid = some q → P' q.sid q.loaded ∧ P' q.sid q.session := by
    intro rid q' hq'
    cases h.held hq' with
    | kept q hq => exact ⟨hmono _ _ (hw.loaded rid q' hq), hmono _ _ (hw.held rid q' hq)⟩
    | started kind cookie sid s ha hr hn hs =>
      have hread : P' sid s := by
        rcases hs with ⟨hs, -⟩ | ⟨rfl, -⟩
        · exact hmono _ _ (hw.stored sid s hs)
        · exact hempty sid
      exact ⟨hread, hhandle kind sid s hread⟩
    | moved q phase hq hp => exact ⟨hmono _ _ (hw.loaded rid q hq), hmono _ _ (hw.held rid q hq)⟩
    | rejected q next ha hq hp hl =>
      exact ⟨hmono _ _ (hw.loaded rid q hq),
        hrejected rid _ next _ hl (hmono _ _ (hw.held rid q hq))⟩
    | created q a hq hk hl hn => exact ⟨hempty _, hcreated rid _ a hl⟩
  constructor
  · intro sid s hs
    rcases h.stored hs with hs | ⟨rid, cs, hc⟩
    · exact hmono _ _ (hw.stored sid s hs)
    · apply hmono
      apply hw.queued rid
      rw [hc]
      exact List.mem_cons_self
  · intro rid q hq
    exact (hrequest rid q hq).1
  · intro rid q hq
    exact (hrequest rid q hq).2
  · intro rid sid s hs
    rcases h.queued hs with hs | ⟨q, hq, rfl, rfl, -⟩
    · exact hmono _ _ (hw.queued rid sid s hs)
    · exact hmono _ _ (hw.held rid q hq)

end MusicComparer.Server
