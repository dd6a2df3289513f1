import MusicComparer.Server.Provenance
import MusicComparer.Server.Writes

/-!
# The token check and the latest callback

Under a user name redis holds what the last executed callback for that name stored, as long as no
name collides with a cache key. A callback issues its `SET` before the removal that creates its
session, on one connection; so the `SET` of a session has been executed before any request can
hold the session, and the check compares with it or with a later one.
-/

namespace MusicComparer.Server

open MusicComparer.Js MusicComparer.Upstream MusicComparer.Redis MusicComparer.Api
open MusicComparer.System

variable {ν : Type} [JsNumber ν] {lower : JsString → JsString} {keys : ApiKeys}
  {w w' : World ν} {act : Action ν}

/-- The answer of the last callback whose `SET` for this name has been executed. -/
def lastAnswer (log : List (Event ν)) (u : JsString) : Option (Answer ν) :=
  log.findSome? fun e ↦
    match e with
    | .authenticated a => if a.name = u then some a else none
    | _ => none

/-- Observations other than callbacks do not matter. -/
private theorem lastAnswer_append {es log : List (Event ν)} (h : ∀ a, .authenticated a ∉ es)
    (u : JsString) : lastAnswer (es ++ log) u = lastAnswer log u := by
  rw [lastAnswer, List.findSome?_append]
  have hnone : (es.findSome? fun e ↦
      match e with
      | .authenticated a => if a.name = u then some a else none
      | _ => none) = none := by
    rw [List.findSome?_eq_none_iff]
    intro e he
    split
    · next a => exact absurd he (h a)
    · rfl
  rw [hnone]
  rfl

private theorem lastAnswer_cons (a : Answer ν) (log : List (Event ν)) (u : JsString) :
    lastAnswer (.authenticated a :: log) u = if a.name = u then some a else lastAnswer log u := by
  rw [lastAnswer, List.findSome?_cons]
  by_cases h : a.name = u
  · simp [h]
  · simp [h, lastAnswer]

/-- The last callback for a name is in the log, and none for the name is newer. -/
theorem lastAnswer_eq_some {log : List (Event ν)} {u : JsString} {a : Answer ν}
    (h : lastAnswer log u = some a) : a.name = u ∧ ∃ l₁ l₂, log = l₁ ++ .authenticated a :: l₂ ∧
      ∀ b, .authenticated b ∈ l₁ → b.name ≠ u := by
  obtain ⟨l₁, e, l₂, rfl, he, hl⟩ := List.findSome?_eq_some_iff.mp h
  split at he
  · next b =>
    split at he
    · next hn =>
      cases he
      refine ⟨hn, l₁, l₂, rfl, ?_⟩
      intro b hb hbn
      have := hl _ hb
      simp [hbn] at this
    · cases he
  · cases he

/-- A name for which a callback was executed has a last callback. -/
theorem lastAnswer_isSome {log : List (Event ν)} {a : Answer ν} (h : .authenticated a ∈ log) :
    ∃ b, lastAnswer log a.name = some b := by
  cases hb : lastAnswer log a.name with
  | some b => exact ⟨b, rfl⟩
  | none =>
    have := List.findSome?_eq_none_iff.mp hb _ h
    simp at this

/-- Last.fm names that are no cache keys. -/
def Unprefixed : Action ν → Prop
  | .answer _ a => ¬ js "artist:" <+: a.name
  | _ => True

instance : DecidablePred (Unprefixed (ν := ν))
  | .answer _ a => inferInstanceAs (Decidable (¬ js "artist:" <+: a.name))
  | .start .. | .noAnswer .. | .tokenReply .. | .listReply .. | .finish .. | .execApp
  | .expireSession .. | .post .. | .lookup .. | .respond .. | .execApi | .expireKey .. | .stop =>
    .isTrue trivial

/-- The invariant of the runs: each removal waits behind its `SET`, sessions are created after
their `SET`, and the last callback for a name is what redis holds. -/
structure Authentic (w : World ν) : Prop where
  ordered : ∀ l₁ rid sid a l₂, w.appQueue = l₁ ++ .destroy rid sid a :: l₂ →
    .set a ∈ l₁ ∨ .authenticated a ∈ w.log
  created : ∀ rid sid a, .created rid sid a ∈ w.log → .authenticated a ∈ w.log
  queued : ∀ a, .set a ∈ w.appQueue → ¬ js "artist:" <+: a.name
  names : ∀ a, .authenticated a ∈ w.log → ¬ js "artist:" <+: a.name
  stored : ∀ u a, lastAnswer w.log u = some a → w.redis u = some ⟨.str a.text, none⟩

private theorem authentic_init : Authentic (World.init : World ν) := by
  constructor
  · intro l₁ rid sid a l₂ h
    exact absurd h (by simp [World.init])
  all_goals
    intros
    contradiction

/-- A search writes only under cache keys, and leaves strings under other keys alone. -/
private theorem exec_searchCommand {log : List (Event ν)} {c : Command ν} (hc : SearchCommand log c)
    {db : Keyspace ν} {u s : JsString} {t : Option Nat} (hu : ¬ js "artist:" <+: u)
    (h : db u = some ⟨.str s, t⟩) : exec db c u = some ⟨.str s, t⟩ := by
  obtain ⟨key, r, -, hc⟩ := hc
  have hkey : u ≠ artistKey key := by
    rintro rfl
    exact hu (List.prefix_append _ _)
  apply exec_of_str h
  · rintro v rfl
    rcases mem_commands hc with he | he | ⟨text, he⟩ | ⟨x, he⟩
    · cases he
      exact hkey rfl
    all_goals cases he
  · rintro n rfl
    rcases mem_commands hc with he | he | ⟨text, he⟩ | ⟨x, he⟩
    · cases he
    · cases he
      exact hkey rfl
    all_goals cases he

/-- What redis holds for the last callback of a name is still there after a step. -/
private theorem stored_step (hw : Authentic w) (hsearch : Searched w)
    (h : Transition lower keys w act w') {u : JsString} {a : Answer ν}
    (ha : lastAnswer w'.log u = some a) : w'.redis u = some ⟨.str a.text, none⟩ := by
  cases h.written with
  | kept hr hl =>
    obtain ⟨es, hl, hes⟩ := hl
    rw [hl, lastAnswer_append hes] at ha
    rw [hr]
    exact hw.stored u a ha
  | callback b cs hc hr hl =>
    rw [hl, lastAnswer_cons] at ha
    rw [hr]
    split at ha
    · next hn =>
      cases ha
      rw [← hn]
      exact exec_set w.redis a.name a.text
    · next hn =>
      rw [exec_of_ne w.redis (.set b.name b.text) fun he ↦ hn he.symm]
      exact hw.stored u a ha
  | search c cs hc hr hl =>
    rw [hl] at ha
    rw [hr]
    have hname : ¬ js "artist:" <+: u := by
      obtain ⟨rfl, l₁, l₂, hlog, -⟩ := lastAnswer_eq_some ha
      apply hw.names
      rw [hlog]
      simp
    apply exec_searchCommand (hsearch.queued c _) hname (hw.stored u a ha)
    rw [hc]
    exact List.mem_cons_self
  | expired key e he ht hr hl =>
    rw [hl] at ha
    have hs := hw.stored u a ha
    have hne : u ≠ key := by
      rintro rfl
      rw [hs, Option.some_inj] at he
      subst he
      cases ht
    rw [hr, del, Function.update_of_ne hne]
    exact hs

/-- A command in a queue that was extended is an old one, with the same commands before it, or one
of the new. -/
private theorem queue_cases {q new l₁ l₂ : List (AppCommand ν)} {c : AppCommand ν}
    (h : q ++ new = l₁ ++ c :: l₂) :
    (∃ m, q = l₁ ++ c :: m) ∨ ∃ m, l₁ = q ++ m ∧ new = m ++ c :: l₂ := by
  rw [List.append_eq_append_iff] at h
  rcases h with ⟨m, hl, hn⟩ | ⟨m, hl, hn⟩
  · exact Or.inr ⟨m, hl, hn⟩
  · match m, hn with
    | [], hn =>
      rw [List.append_nil] at hl
      exact Or.inr ⟨[], by rw [hl, List.append_nil], hn.symm⟩
    | d :: m, hn =>
      cases hn
      exact Or.inl ⟨m, hl⟩

/-- Each removal still waits behind its `SET` after a step, unless that has been executed. -/
private theorem ordered_step (hw : Authentic w) (h : Transition lower keys w act w')
    {l₁ l₂ : List (AppCommand ν)} {rid sid : Nat} {a : Answer ν}
    (hq : w'.appQueue = l₁ ++ .destroy rid sid a :: l₂) :
    .set a ∈ l₁ ∨ .authenticated a ∈ w'.log := by
  have hold : ∀ l₁ l₂, w.appQueue = l₁ ++ .destroy rid sid a :: l₂ →
      .set a ∈ l₁ ∨ .authenticated a ∈ w'.log := by
    intro l₁ l₂ hq
    exact (hw.ordered l₁ rid sid a l₂ hq).imp_right h.mem_log
  cases h.waiting with
  | kept hk => exact hold l₁ l₂ (hk.symm.trans hq)
  | answered rid' b q hb hq' hp hq'' hk hl =>
    rw [hk] at hq
    rcases queue_cases hq with ⟨m, hm⟩ | ⟨m, rfl, hm⟩
    · exact hold l₁ m hm
    · -- the removal is one of the two new commands, and its `SET` is the other
      match m, hm with
      | [], hm => cases hm
      | c :: [], hm =>
        cases hm
        exact Or.inl (by simp)
      | c :: d :: m, hm =>
        have := congrArg List.length hm
        simp at this
  | saved rid' q hq' hp hn hq'' hk =>
    rw [hk] at hq
    rcases queue_cases hq with ⟨m, hm⟩ | ⟨m, -, hm⟩
    · exact hold l₁ m hm
    · rw [List.singleton_eq_append_iff] at hm
      simp at hm
  | executed c hk hl =>
    rw [hq] at hk
    rcases hold (c :: l₁) l₂ hk with hm | hm
    · rcases List.mem_cons.mp hm with hm | hm
      · exact Or.inr (hl a hm.symm)
      · exact Or.inl hm
    · exact Or.inr hm
  | lost hk =>
    rw [hk] at hq
    simp at hq

/-- A waiting `SET` is an old one, or that of the answer. -/
private theorem unprefixed_queued_step (hw : Authentic w) (hact : Unprefixed act)
    (h : Transition lower keys w act w') {a : Answer ν} (ha : .set a ∈ w'.appQueue) :
    ¬ js "artist:" <+: a.name := by
  cases h.waiting with
  | kept hk =>
    rw [hk] at ha
    exact hw.queued a ha
  | answered rid b q hb hq hp hq' hk hl =>
    rw [hk, List.mem_append] at ha
    rcases ha with ha | ha
    · exact hw.queued a ha
    · simp only [List.mem_cons, AppCommand.set.injEq, reduceCtorEq, List.not_mem_nil,
        or_false] at ha
      rw [ha]
      rw [hb] at hact
      exact hact
  | saved rid q hq hp hn hq' hk =>
    rw [hk] at ha
    exact hw.queued a (by simpa using ha)
  | executed c hk hl =>
    apply hw.queued a
    rw [hk]
    exact List.mem_cons_of_mem c ha
  | lost hk =>
    rw [hk] at ha
    cases ha

/-- An executed `SET` was executed before, or was waiting. -/
private theorem unprefixed_names_step (hw : Authentic w) (h : Transition lower keys w act w')
    {a : Answer ν} (ha : .authenticated a ∈ w'.log) : ¬ js "artist:" <+: a.name := by
  cases h.written with
  | kept hr hl =>
    obtain ⟨es, hl, hes⟩ := hl
    rw [hl, List.mem_append] at ha
    exact hw.names a (ha.resolve_left (hes a))
  | callback b cs hc hr hl =>
    rw [hl, List.mem_cons] at ha
    rcases ha with ha | ha
    · cases ha
      apply hw.queued a
      rw [hc]
      exact List.mem_cons_self
    · exact hw.names a ha
  | search c cs hc hr hl =>
    rw [hl] at ha
    exact hw.names a ha
  | expired key e he ht hr hl =>
    rw [hl] at ha
    exact hw.names a ha

private theorem authentic_step (hw : Authentic w) (hsearch : Searched w) (hact : Unprefixed act)
    (h : Transition lower keys w act w') : Authentic w' := by
  constructor
  · intro l₁ rid sid a l₂ hq
    exact ordered_step hw h hq
  · intro rid sid a hc
    rcases h.created hc with hc | ⟨-, -, old, cs, hq⟩
    · exact h.mem_log (hw.created rid sid a hc)
    · apply h.mem_log
      exact (hw.ordered [] rid old a cs hq).resolve_left List.not_mem_nil
  · intro a ha
    exact unprefixed_queued_step hw hact h ha
  · intro a ha
    exact unprefixed_names_step hw h ha
  · intro u a ha
    exact stored_step hw hsearch h ha

/-- Every state reached with names that are no cache keys is authentic. -/
theorem authentic_of_run {as : List (Action ν)} (hn : ∀ act ∈ as, Unprefixed act)
    (h : run (step lower keys) World.init as = some w) : Authentic w :=
  run_invariant_within (fun _ _ _ hr ↦ searched_of_run hr)
    (fun _ _ _ hs hw hact hstep ↦ authentic_step hw hs hact (transition_of_step hstep))
    authentic_init (along_of_forall hn) h

/-- The credentials that a version of a session has are those of an executed callback. -/
theorem authenticated_of_credentials (ha : Authentic w) {sid : Nat} {s : Session} {u t : JsString}
    (hp : Provenance w.log sid s) (hu : s.username = some u)
    (ht : s.token = some t) : ∃ a, .authenticated a ∈ w.log ∧ a.name = u ∧ a.key = t := by
  rcases hp with ⟨-, ht', -⟩ | ⟨rid, a, hc, ht', hu'⟩
  · rw [ht] at ht'
    cases ht'
  · rw [ht, Option.some_inj] at ht'
    rw [hu] at hu'
    have hname : u = a.name := by simpa using hu'
    exact ⟨a, ha.created rid sid a hc, hname.symm, ht'.symm⟩

/-- The request has passed the token check and waits for the list. -/
def passed (w : World ν) (rid : Nat) : Bool := (w.inPhase rid .awaitList).isSome

/-- Whenever the reply to a token check arrives, the session has a user name and a token, and the
check passes if and only if the token is the key of the last callback executed for the name. If it
does not pass, a callback with another key was executed for the name after the one that gave the
session its token. -/
theorem tokenReply_passes_iff {as : List (Action ν)} (hn : ∀ act ∈ as, Unprefixed act)
    (h : run (step lower keys) World.init as = some w) {rid : Nat}
    (hstep : step lower keys w (.tokenReply rid) = some w') :
    ∃ q u t, w.requests rid = some q ∧ q.session.username = some u ∧ q.session.token = some t ∧
      (passed w' rid = true ↔ (lastAnswer w.log u).map Answer.key = some t) ∧
      (passed w' rid = false → ∃ l₁ l₂ a b, w.log = l₁ ++ .authenticated b :: l₂ ∧
        .authenticated a ∈ l₂ ∧ a.name = u ∧ a.key = t ∧ b.name = u ∧ b.key ≠ t) := by
  have hw := sound_of_run h
  have ha := authentic_of_run hn h
  obtain ⟨q, hq, hp, hpass⟩ : ∃ q, w.requests rid = some q ∧ q.phase = .awaitToken ∧
      passed w' rid = q.session.accepts ν (Redis.get w.redis (q.session.username.getD [])) := by
    cases transition_of_step hstep with
    | tokenAccepted _ q hq hp hacc =>
      refine ⟨q, hq, hp, ?_⟩
      rw [hacc]
      simp [passed, World.inPhase, World.setRequest, World.note]
    | tokenRejected _ q hq hp hacc =>
      refine ⟨q, hq, hp, ?_⟩
      rw [hacc]
      simp [passed, World.inPhase, World.reject, World.setRequest, World.note]
  obtain ⟨u, t, hu, ht, -, -⟩ :=
    (Session.hasCredentials_iff _).mp (hw.checking rid q hq (Or.inl hp))
  obtain ⟨a, hauth, rfl, rfl⟩ :=
    authenticated_of_credentials ha (hw.sessions.held rid q hq) hu ht
  obtain ⟨b, hb⟩ := lastAnswer_isSome hauth
  obtain ⟨hbn, l₁, l₂, hlog, hlast⟩ := lastAnswer_eq_some hb
  have hget : Redis.get w.redis a.name = some (some b.text) := by
    rw [Redis.get, ha.stored _ b hb]
  have hiff : passed w' rid = true ↔ b.key = a.key := by
    rw [hpass, hu, Option.getD_some, hget, Session.accepts_text ht]
    exact eq_comm
  refine ⟨q, a.name, a.key, hq, hu, ht, ?_, ?_⟩
  · rw [hb, Option.map_some, Option.some_inj]
    exact hiff
  · intro hfail
    have hne : b.key ≠ a.key := by
      intro he
      rw [hiff.mpr he] at hfail
      cases hfail
    refine ⟨l₁, l₂, a, b, hlog, ?_, rfl, rfl, hbn, hne⟩
    rw [hlog, List.mem_append, List.mem_cons] at hauth
    rcases hauth with hm | hm | hm
    · exact absurd rfl (hlast a hm)
    · cases hm
      exact absurd rfl hne
    · exact hm

/-- The state in which `ann`, logged in, has requested the application page. -/
def annRequests : World Whole :=
  (run (step LowerCase.ascii.lower ⟨[], []⟩) World.init
    (completeCallback 0 0 ann ++ [.start .application 1])).getD World.init

/-- Her check passes, with the key that her callback stored. -/
theorem tokenReply_passes_ann : ∃ w' q u t,
    step LowerCase.ascii.lower ⟨[], []⟩ annRequests (.tokenReply 1) = some w' ∧
      annRequests.requests 1 = some q ∧ q.session.username = some u ∧ q.session.token = some t ∧
      (passed w' 1 = true ↔ (lastAnswer annRequests.log u).map Answer.key = some t) := by
  have hr : run (step LowerCase.ascii.lower ⟨[], []⟩) World.init
      (completeCallback 0 0 ann ++ [.start .application 1]) = some annRequests := rfl
  have hs : (step LowerCase.ascii.lower ⟨[], []⟩ annRequests (.tokenReply 1)).isSome = true := by
    decide +kernel
  obtain ⟨w', hw'⟩ := Option.isSome_iff_exists.mp hs
  obtain ⟨q, u, t, hq, hu, ht, hiff, -⟩ := tokenReply_passes_iff (by decide +kernel) hr hw'
  exact ⟨w', q, u, t, hw', hq, hu, ht, hiff⟩

end MusicComparer.Server
