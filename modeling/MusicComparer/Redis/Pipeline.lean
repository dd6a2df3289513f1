import MusicComparer.Redis.Output
import MusicComparer.Redis.ReplyStream
import MusicComparer.Redis.Stream

/-!
# Commands and replies on a connection

Library `Redis`. A client sends commands without waiting for their replies. The server reads them in
pieces, executes those that are complete, and writes the replies in pieces; the client reads these
in other pieces. The commands are any functions on any state of the server, and anything may happen
in any order. The client gets the replies that it would get if the commands were executed one after
the other.

The commands that a read has completed are executed after the read; reading does not depend on their
replies. The connection does not break.
-/

namespace MusicComparer.Redis

/-- What a command replies, with the calls that build the reply. -/
structure Answer where
  response : WireReply
  writes : Writes
  bytes_eq : writes.bytes false = response.encode
  valid : response.Valid 8

/-- A connection, with what is on its way to either side, the state of the server, and the replies
that the client has got. -/
structure Pipe (σ : Type) where
  toServer : Bytes
  net : NetClient
  store : σ
  out : OutClient
  toClient : Bytes
  reader : Reader
  got : List RedisReply

/-- What happens on a connection. A `write` of the server takes at most so many bytes and one more,
or none. -/
inductive PipeStep where
  | command (argv : { argv : List Bytes // Sendable argv })
  | serverRead (n : Nat)
  | serverSend (overMemory : Bool) (ws : List (Option Nat))
  | clientRead (n : Nat)

variable {σ : Type} (execute : σ → List Bytes → σ × Answer)

/-- An event of the connection on the side of the server: a command is executed, and `QUIT` and
protocol errors close the connection. -/
def serveEvent (x : σ × OutClient) : NetEvent → σ × OutClient
  | .command argv => ((execute x.1 argv).1, (execute x.1 argv).2.writes.run x.2)
  | .quit => (x.1, { x.2.addReply [43, 79, 75, 13, 10] with closing := true })
  | .error e =>
    (x.1, { x.2.addReply ("-ERR ".toUTF8.toList ++ e.text.toUTF8.toList ++ [13, 10]) with
      closing := true })

/-- Take a step. -/
def PipeStep.run (p : Pipe σ) : PipeStep → Option (Pipe σ)
  | command argv => do
    let toServer ← appendCommandArgv p.toServer argv.1
    return { p with toServer := toServer }
  | serverRead n =>
    if p.toServer.isEmpty || p.net.freed then some p
    else do
      let nread := min (n + 1) p.net.readlen
      let net ← readQueryFromClient p.net (p.toServer.take nread)
      let (store, out) :=
        (net.log.drop p.net.log.length).foldl (serveEvent execute) (p.store, p.out)
      return { p with toServer := p.toServer.drop nread, net := net, store := store, out := out }
  | serverSend overMemory ws => do
    let (bytes, out) ← (OutStep.send overMemory
      (ws.map fun w ↦ w.elim WriteResult.again WriteResult.bytes)).run p.out
    return { p with out := out, toClient := p.toClient ++ bytes }
  | clientRead n => do
    let reader := p.reader.feed (p.toClient.take (n + 1))
    let (replies, reader) ← reader.getReplies (reader.unread.length + 1)
    return { p with toClient := p.toClient.drop (n + 1), reader := reader, got := p.got ++ replies }

/-- Take all steps. -/
def PipeStep.runAll : List PipeStep → Pipe σ → Option (Pipe σ)
  | [], p => some p
  | x :: xs, p => (x.run execute p).bind (runAll xs)

/-- A new connection. -/
def Pipe.create (store : σ) : Pipe σ := ⟨[], .create, store, .create, [], .create, []⟩

/-- The responses to commands that are executed one after the other, and the state after them. -/
def executeAll : σ → List (List Bytes) → List WireReply × σ
  | store, [] => ([], store)
  | store, argv :: cmds =>
    let x := execute store argv
    let rest := executeAll x.1 cmds
    (x.2.response :: rest.1, rest.2)

/-- The commands of a run. -/
def PipeStep.commands (xs : List PipeStep) : List (List Bytes) :=
  xs.filterMap fun x ↦
    match x with
    | .command argv => some argv.1
    | _ => none

/-! ### The invariant -/

/-- The first commands have been executed, the client has got the first responses to them, and the
others are on their way or in the buffers of the server. -/
private structure Pipelined (store : σ) (cmds executed : List (List Bytes))
    (done todo : List WireReply) (p : Pipe σ) : Prop where
  receives : Receives cmds p.toServer executed p.net
  responses : executeAll execute store executed = (done ++ todo, p.store)
  got : p.got = toReplies done
  settled : Settled p.out
  closing : p.out.closing = false
  freed : p.out.freed = false
  expects : Expects todo (p.toClient ++ p.out.pending) p.reader
  starved : Starved todo (p.toClient ++ p.out.pending)

variable {execute} {store : σ} {cmds executed : List (List Bytes)} {done todo : List WireReply}
  {p : Pipe σ}

private theorem executeAll_concat {store' : σ} {responses : List WireReply} (argv : List Bytes)
    (h : executeAll execute store executed = (responses, store')) :
    executeAll execute store (executed ++ [argv]) =
      (responses ++ [(execute store' argv).2.response], (execute store' argv).1) := by
  induction executed generalizing store responses with
  | nil =>
    cases h
    rfl
  | cons first executed ih =>
    rw [executeAll] at h
    obtain ⟨rfl, rfl⟩ := Prod.mk.inj h
    rw [List.cons_append, executeAll, ih rfl, List.cons_append]

/-- Commands are executed, and their replies are put into the buffers. -/
private theorem serve_commands (new : List (List Bytes)) {x : σ × OutClient} {sent : Bytes}
    {reader : Reader} (hresponses : executeAll execute store executed = (done ++ todo, x.1))
    (hsettled : Settled x.2) (hclosing : x.2.closing = false) (hfreed : x.2.freed = false)
    (hexpects : Expects todo (sent ++ x.2.pending) reader)
    (hstarved : Starved todo (sent ++ x.2.pending)) :
    ∃ todo' x', (new.map .command).foldl (serveEvent execute) x = x' ∧
      executeAll execute store (executed ++ new) = (done ++ todo', x'.1) ∧ Settled x'.2 ∧
      x'.2.closing = false ∧ x'.2.freed = false ∧ Expects todo' (sent ++ x'.2.pending) reader ∧
      Starved todo' (sent ++ x'.2.pending) := by
  induction new generalizing executed todo x with
  | nil =>
    rw [List.append_nil]
    exact ⟨todo, x, rfl, hresponses, hsettled, hclosing, hfreed, hexpects, hstarved⟩
  | cons argv new ih =>
    obtain ⟨hsettled', hpending, hclosing', hfreed'⟩ :=
      settled_run (execute x.1 argv).2.writes hsettled
    have hbytes : ((execute x.1 argv).2.writes.run x.2).pending =
        x.2.pending ++ (execute x.1 argv).2.response.encode := by
      rw [hpending, hclosing, (execute x.1 argv).2.bytes_eq]
    have hresponses' := executeAll_concat argv hresponses
    rw [List.append_assoc] at hresponses'
    rw [← List.singleton_append, ← List.append_assoc]
    refine ih (x := ((execute x.1 argv).1, (execute x.1 argv).2.writes.run x.2)) hresponses'
      hsettled' (hclosing'.trans hclosing) (hfreed'.trans hfreed) ?_ ?_
    · rw [hbytes, ← List.append_assoc]
      exact expects_append hexpects (execute x.1 argv).2.valid
    · rw [hbytes, ← List.append_assoc]
      exact starved_append hstarved _

/-- A command goes on its way. -/
private theorem pipelined_command (h : Pipelined execute store cmds executed done todo p)
    (argv : { argv : List Bytes // Sendable argv }) :
    ∃ p', (PipeStep.command argv).run execute p = some p' ∧
      Pipelined execute store (cmds ++ [argv.1]) executed done todo p' := by
  refine ⟨{ p with toServer := p.toServer ++ multibulk argv.1 }, ?_, h.receives.send argv.1,
    h.responses, h.got, h.settled, h.closing, h.freed, h.expects, h.starved⟩
  rw [PipeStep.run, appendCommandArgv, formatCommandArgv_eq]
  rfl

/-- The server reads, and executes the commands that are complete. -/
private theorem pipelined_serverRead (hcmds : ∀ argv ∈ cmds, Sendable argv)
    (h : Pipelined execute store cmds executed done todo p) (n : Nat) :
    ∃ p' executed' todo', (PipeStep.serverRead n).run execute p = some p' ∧
      Pipelined execute store cmds executed' done todo' p' := by
  rw [PipeStep.run]
  by_cases hnone : (p.toServer.isEmpty || p.net.freed) = true
  · rw [if_pos hnone]
    exact ⟨p, executed, todo, rfl, h⟩
  rw [if_neg hnone]
  obtain ⟨-, -, -, -, hreadlen, -⟩ := Receives.executed hcmds h.receives
  have hne : p.toServer.take (min (n + 1) p.net.readlen) ≠ [] := by
    rw [ne_eq, List.take_eq_nil_iff, not_or]
    refine ⟨by omega, fun hnil ↦ hnone ?_⟩
    rw [hnil]
    rfl
  have hsplit := h.receives
  rw [← List.take_append_drop (min (n + 1) p.net.readlen) p.toServer] at hsplit
  obtain ⟨net, new, hread, hlog, hreceives⟩ :=
    hsplit.read hcmds hne (by rw [List.length_take]; omega)
  obtain ⟨todo', x, hserve, hresponses, hsettled, hclosing, hfreed, hexpects, hstarved⟩ :=
    serve_commands new (x := (p.store, p.out)) h.responses h.settled h.closing h.freed h.expects
      h.starved
  refine ⟨{ p with
    toServer := p.toServer.drop (min (n + 1) p.net.readlen)
    net := net
    store := x.1
    out := x.2 }, executed ++ new, todo', ?_, hreceives, hresponses, h.got, hsettled, hclosing,
    hfreed, hexpects, hstarved⟩
  change (readQueryFromClient p.net (p.toServer.take (min (n + 1) p.net.readlen))).bind _ = _
  rw [hread, Option.bind_some, hlog, List.drop_left, hserve]
  rfl

/-- The server writes: bytes leave its buffers and are on their way. -/
private theorem pipelined_serverSend (h : Pipelined execute store cmds executed done todo p)
    (overMemory : Bool) (ws : List (Option Nat)) :
    ∃ p', (PipeStep.serverSend overMemory ws).run execute p = some p' ∧
      Pipelined execute store cmds executed done todo p' := by
  have hnone : WriteResult.failed ∉
      ws.map fun w ↦ w.elim WriteResult.again WriteResult.bytes := by
    rw [List.mem_map]
    rintro ⟨_ | n, -, hw⟩ <;> cases hw
  rw [PipeStep.run, OutStep.run]
  generalize ws.map (fun w ↦ w.elim WriteResult.again WriteResult.bytes) = ws at hnone ⊢
  by_cases hwrites : (p.out.writable && !p.out.freed) = true
  · obtain ⟨bytes, out, hsend, hsettled, ⟨rest, hbytes, hpending, -⟩, -, hclosing, hfreed⟩ :=
      sendReplyToClient_spec overMemory ws h.settled h.freed
    have hopen := hfreed hnone h.closing
    have hway : p.toClient ++ bytes ++ out.pending = p.toClient ++ p.out.pending := by
      rw [hpending hopen, List.append_assoc, hbytes]
    refine ⟨{ p with out := out, toClient := p.toClient ++ bytes }, ?_, h.receives, h.responses,
      h.got, hsettled, hclosing.trans h.closing, hopen, ?_, ?_⟩
    · rw [if_pos hwrites, hsend]
      rfl
    · rw [hway]
      exact h.expects
    · rw [hway]
      exact h.starved
  · refine ⟨p, ?_, h⟩
    rw [if_neg hwrites]
    change some { p with toClient := p.toClient ++ [] } = some p
    rw [List.append_nil]

/-- The client reads, and gets the replies that are complete. -/
private theorem pipelined_clientRead (h : Pipelined execute store cmds executed done todo p)
    (n : Nat) :
    ∃ p' done' todo', (PipeStep.clientRead n).run execute p = some p' ∧
      Pipelined execute store cmds executed done' todo' p' := by
  have hexpects := h.expects
  rw [← List.take_append_drop (n + 1) p.toClient, List.append_assoc] at hexpects
  obtain ⟨new, todo', reader, hget, rfl, hexpects', hstarved⟩ :=
    getReplies_spec (expects_feed hexpects) (Nat.lt_succ_self _)
  refine ⟨{ p with
    toClient := p.toClient.drop (n + 1)
    reader := reader
    got := p.got ++ toReplies new }, done ++ new, todo', ?_, h.receives, ?_, ?_, h.settled,
    h.closing, h.freed, hexpects', hstarved⟩
  · rw [PipeStep.run]
    change ((p.reader.feed (p.toClient.take (n + 1))).getReplies _).bind _ = _
    rw [hget]
    rfl
  · rw [h.responses, List.append_assoc]
  · rw [toReplies_append, ← h.got]

/-- A step keeps the invariant. -/
private theorem pipelined_step (hcmds : ∀ argv ∈ cmds, Sendable argv)
    (h : Pipelined execute store cmds executed done todo p) (x : PipeStep) :
    ∃ p' executed' done' todo', x.run execute p = some p' ∧
      Pipelined execute store (cmds ++ PipeStep.commands [x]) executed' done' todo' p' := by
  have hsame : cmds ++ [] = cmds := List.append_nil cmds
  cases x with
  | command argv =>
    obtain ⟨p', hrun, h'⟩ := pipelined_command h argv
    exact ⟨p', executed, done, todo, hrun, h'⟩
  | serverRead n =>
    obtain ⟨p', executed', todo', hrun, h'⟩ := pipelined_serverRead hcmds h n
    exact ⟨p', executed', done, todo', hrun, hsame.symm ▸ h'⟩
  | serverSend overMemory ws =>
    obtain ⟨p', hrun, h'⟩ := pipelined_serverSend h overMemory ws
    exact ⟨p', executed, done, todo, hrun, hsame.symm ▸ h'⟩
  | clientRead n =>
    obtain ⟨p', done', todo', hrun, h'⟩ := pipelined_clientRead h n
    exact ⟨p', executed, done', todo', hrun, hsame.symm ▸ h'⟩

/-- The commands of a run can be sent. -/
private theorem sendable_commands (xs : List PipeStep) :
    ∀ argv ∈ PipeStep.commands xs, Sendable argv := by
  intro argv hargv
  obtain ⟨x, -, hx⟩ := List.mem_filterMap.mp hargv
  cases x with
  | command argv' =>
    cases hx
    exact argv'.2
  | serverRead n => cases hx
  | serverSend overMemory ws => cases hx
  | clientRead n => cases hx

/-- All steps keep the invariant. -/
private theorem pipelined_runAll (xs : List PipeStep) (hcmds : ∀ argv ∈ cmds, Sendable argv)
    (h : Pipelined execute store cmds executed done todo p) :
    ∃ p' executed' done' todo', PipeStep.runAll execute xs p = some p' ∧
      Pipelined execute store (cmds ++ PipeStep.commands xs) executed' done' todo' p' := by
  induction xs generalizing cmds executed done todo p with
  | nil =>
    rw [PipeStep.commands, List.filterMap_nil, List.append_nil]
    exact ⟨p, executed, done, todo, rfl, h⟩
  | cons x xs ih =>
    obtain ⟨p₁, executed₁, done₁, todo₁, hstep, h₁⟩ := pipelined_step hcmds h x
    obtain ⟨p₂, executed₂, done₂, todo₂, hrun, h₂⟩ :=
      ih (List.forall_mem_append.mpr ⟨hcmds, sendable_commands [x]⟩) h₁
    refine ⟨p₂, executed₂, done₂, todo₂, ?_, ?_⟩
    · rw [PipeStep.runAll, hstep]
      exact hrun
    · rw [List.append_assoc, PipeStep.commands, PipeStep.commands, ← List.filterMap_append] at h₂
      exact h₂

variable (execute)

end MusicComparer.Redis
