import MusicComparer.Server.Copies

/-!
# Requests and the commands they wait for

A removal or a write that waits on the connection of `app.js` belongs to one request in flight,
which does nothing until the command has been executed; and a request has at most one such command.
So the writes still to come are known from the requests in flight.
-/

namespace MusicComparer.Server

open MusicComparer.Js MusicComparer.Upstream MusicComparer.System

variable {ν : Type} [JsNumber ν] {lower : JsString → JsString} {keys : ApiKeys}
  {w w' : World ν} {act : Action ν}

/-- The request whose callback runs after the command. -/
def AppCommand.rid : AppCommand ν → Option Nat
  | set _ => none
  | destroy rid _ _ | save rid _ _ => some rid

/-- A request that waits for this command. -/
def AppCommand.Awaited (q : PageRequest) : AppCommand ν → Prop
  | set _ => False
  | destroy .. => q.phase = .regenerating
  | save _ sid s => q.phase = .saving ∧ q.sid = sid ∧ q.session = s ∧ q.session ≠ q.loaded

/-- The invariant of the runs: numbers and identifiers in use have been given out, and waiting
commands belong to requests, one each. -/
structure Linked (w : World ν) : Prop where
  numbered : ∀ rid q, w.requests rid = some q → rid < w.nextRid
  stored : ∀ sid s, w.store sid = some s → sid < w.nextSid
  minted : ∀ rid q, w.requests rid = some q → q.sid < w.nextSid
  awaited : ∀ c ∈ w.appQueue, ∀ rid, c.rid = some rid →
    ∃ q, w.requests rid = some q ∧ c.Awaited q
  nodup : (w.appQueue.filterMap AppCommand.rid).Nodup

private theorem linked_init : Linked (World.init : World ν) := by
  constructor
  case nodup => exact List.nodup_nil
  all_goals
    intros
    contradiction

private theorem numbered_step (hw : Linked w) (h : Transition lower keys w act w') {rid : Nat}
    {q' : PageRequest} (hq' : w'.requests rid = some q') : rid < w'.nextRid := by
  have hold : ∀ q, w.requests rid = some q → rid < w'.nextRid := fun q hq ↦
    Nat.lt_of_lt_of_le (hw.numbered rid q hq) h.nextRid_le
  cases h.held hq' with
  | kept q hq => exact hold _ hq
  | started kind cookie sid s ha hr hn hs => omega
  | moved q phase hq hp => exact hold q hq
  | rejected q next ha hq hp hl => exact hold q hq
  | created q a hq hk hl hn => exact hold q hq

private theorem stored_lt_step (hw : Linked w) (h : Transition lower keys w act w') {sid : Nat}
    {s : Session} (hs : w'.store sid = some s) : sid < w'.nextSid := by
  apply Nat.lt_of_lt_of_le ?_ h.nextSid_le
  rcases h.stored hs with hs | ⟨rid, cs, hc⟩
  · exact hw.stored sid s hs
  · obtain ⟨q, hq, -, rfl, -⟩ := hw.awaited (.save rid sid s) (by simp [hc]) rid rfl
    exact hw.minted rid q hq

private theorem minted_step (hw : Linked w) (h : Transition lower keys w act w') {rid : Nat}
    {q' : PageRequest} (hq' : w'.requests rid = some q') : q'.sid < w'.nextSid := by
  have hold : ∀ q, w.requests rid = some q → q.sid < w'.nextSid := fun q hq ↦
    Nat.lt_of_lt_of_le (hw.minted rid q hq) h.nextSid_le
  cases h.held hq' with
  | kept q hq => exact hold _ hq
  | started kind cookie sid s ha hr hn hs =>
    rcases hs with ⟨hs, -⟩ | ⟨-, rfl, hn⟩
    · exact Nat.lt_of_lt_of_le (hw.stored sid s hs) h.nextSid_le
    · exact Nat.lt_of_lt_of_eq (Nat.lt_succ_self _) hn.symm
  | moved q phase hq hp => exact hold q hq
  | rejected q next ha hq hp hl => exact hold q hq
  | created q a hq hk hl hn => exact Nat.lt_of_lt_of_eq (Nat.lt_succ_self _) hn.symm

/-- A request that waits for a command is left alone until that is executed or lost. -/
private theorem untouched (hw : Linked w) (h : Transition lower keys w act w') {rid : Nat}
    {q : PageRequest} (hq : w.requests rid = some q)
    (hp : q.phase = .regenerating ∨ q.phase = .saving) :
    w'.requests rid = some q ∨ (∃ c, w.appQueue = c :: w'.appQueue ∧ c.rid = some rid) ∨
      w'.appQueue = [] := by
  have hrid := hw.numbered rid q hq
  have hother : ∀ rid' q' x, w.requests rid' = some q' → q'.phase ≠ .regenerating →
      q'.phase ≠ .saving → Function.update w.requests rid' x rid = some q := by
    intro rid' q' x hq' h₁ h₂
    rw [Function.update_of_ne ?_, hq]
    rintro rfl
    rw [hq', Option.some_inj] at hq
    subst hq
    exact hp.elim h₁ h₂
  have hexec : ∀ c cs x rid', w.appQueue = c :: cs → c.rid = some rid' →
      Function.update w.requests rid' x rid = some q ∨
        (∃ c, w.appQueue = c :: cs ∧ c.rid = some rid) ∨ cs = [] := by
    intro c cs x rid' hc hr
    by_cases he : rid = rid'
    · subst he
      exact Or.inr (Or.inl ⟨c, hc, hr⟩)
    · rw [Function.update_of_ne he]
      exact Or.inl hq
  cases h with
  | startKnown | startNew =>
    left
    change Function.update w.requests w.nextRid _ rid = _
    rw [Function.update_of_ne (by omega), hq]
  | answer rid' _ q' hq' hp' | listed rid' q' _ hq' hp' | noAnswer rid' q' hq' hp'
  | tokenAccepted rid' q' hq' hp' | tokenRejected rid' q' hq' hp' | listRejected rid' q' hq' hp'
  | anonymous rid' q' hq' hp' | finishUnchanged rid' q' hq' hp' | finishChanged rid' q' hq' hp' =>
    exact Or.inl (hother rid' q' _ hq' (by simp [hp']) (by simp [hp']))
  | execDestroy rid' sid a cs q' hc => exact hexec _ cs _ rid' hc rfl
  | execDestroyLate rid' sid a cs hc => exact hexec _ cs _ rid' hc rfl
  | execSave rid' sid s cs hc => exact hexec _ cs _ rid' hc rfl
  | stop => exact Or.inr (Or.inr rfl)
  | _ => exact Or.inl hq

private theorem phase_of_awaited {c : AppCommand ν} {q : PageRequest} (h : c.Awaited q) :
    q.phase = .regenerating ∨ q.phase = .saving := by
  cases c with
  | set => cases h
  | destroy => exact Or.inl h
  | save => exact Or.inr h.1

/-- A request that waits for nothing on the connection has no command there. -/
private theorem not_mem_rids (hw : Linked w) {rid : Nat} {q : PageRequest}
    (hq : w.requests rid = some q) (h₁ : q.phase ≠ .regenerating) (h₂ : q.phase ≠ .saving) :
    rid ∉ w.appQueue.filterMap AppCommand.rid := by
  intro hm
  obtain ⟨c, hc, hr⟩ := List.mem_filterMap.mp hm
  obtain ⟨q', hq', ha⟩ := hw.awaited c hc rid hr
  rw [hq, Option.some_inj] at hq'
  subst hq'
  exact (phase_of_awaited ha).elim h₁ h₂

private theorem awaited_step (hw : Linked w) (h : Transition lower keys w act w')
    {c : AppCommand ν} (hc : c ∈ w'.appQueue) {rid : Nat} (hr : c.rid = some rid) :
    ∃ q, w'.requests rid = some q ∧ c.Awaited q := by
  have hold : c ∈ w.appQueue → ∃ q, w'.requests rid = some q ∧ c.Awaited q := by
    intro hc'
    obtain ⟨q, hq, ha⟩ := hw.awaited c hc' rid hr
    rcases untouched hw h hq (phase_of_awaited ha) with hq' | ⟨c', hc'', hr'⟩ | hnil
    · exact ⟨q, hq', ha⟩
    · -- the executed command would be a second one of the same request
      have hn := hw.nodup
      rw [hc'', List.filterMap_cons_some hr', List.nodup_cons] at hn
      exact absurd (List.mem_filterMap.mpr ⟨c, hc, hr⟩) hn.1
    · rw [hnil] at hc
      cases hc
  cases h.waiting with
  | kept hk =>
    rw [hk] at hc
    exact hold hc
  | answered rid' a q ha hq hp hq' hk hl =>
    rw [hk] at hc
    simp only [List.mem_append, List.mem_cons, List.not_mem_nil, or_false] at hc
    rcases hc with hc | rfl | rfl
    · exact hold hc
    · cases hr
    · cases hr
      exact ⟨_, hq', rfl⟩
  | saved rid' q hq hp hn hq' hk =>
    rw [hk] at hc
    simp only [List.mem_append, List.mem_cons, List.not_mem_nil, or_false] at hc
    rcases hc with hc | rfl
    · exact hold hc
    · cases hr
      exact ⟨_, hq', rfl, rfl, rfl, hn⟩
  | executed c' hk hl =>
    apply hold
    rw [hk]
    exact List.mem_cons_of_mem c' hc
  | lost hk =>
    rw [hk] at hc
    cases hc

private theorem nodup_step (hw : Linked w) (h : Transition lower keys w act w') :
    (w'.appQueue.filterMap AppCommand.rid).Nodup := by
  have happend : ∀ rid q, w.requests rid = some q → q.phase ≠ .regenerating →
      q.phase ≠ .saving → (w.appQueue.filterMap AppCommand.rid ++ [rid]).Nodup := by
    intro rid q hq h₁ h₂
    rw [List.nodup_append_comm, List.singleton_append, List.nodup_cons]
    exact ⟨not_mem_rids hw hq h₁ h₂, hw.nodup⟩
  cases h.waiting with
  | kept hk =>
    rw [hk]
    exact hw.nodup
  | answered rid a q ha hq hp hq' hk hl =>
    rw [hk, List.filterMap_append]
    exact happend rid q hq (by simp [hp]) (by simp [hp])
  | saved rid q hq hp hn hq' hk =>
    rw [hk, List.filterMap_append]
    exact happend rid q hq (by simp [hp]) (by simp [hp])
  | executed c hk hl =>
    have hn := hw.nodup
    rw [hk, ← List.singleton_append, List.filterMap_append] at hn
    exact hn.of_append_right
  | lost hk =>
    rw [hk]
    exact List.nodup_nil

/-- Every reachable state is linked. -/
theorem linked_of_run {as : List (Action ν)} (h : run (step lower keys) World.init as = some w) :
    Linked w := by
  refine run_induction (I := Linked) ?_ linked_init h
  intro w act w' hw hstep
  have ht := transition_of_step hstep
  constructor
  · exact fun _ _ ↦ numbered_step hw ht
  · exact fun _ _ ↦ stored_lt_step hw ht
  · exact fun _ _ ↦ minted_step hw ht
  · exact fun _ hc _ ↦ awaited_step hw ht hc
  · exact nodup_step hw ht

end MusicComparer.Server
