import LiberaLink.Lib.Reach
import LiberaLink.Lib.Typestate
import LiberaLink.Protocol.Records

/-!
# One Libera protocol server and its sessions

A `TargetServer` with any number of client connections, each served by a thread of its own that runs
`runSession`.  The threads share the atomics `running_` and `sessionOwned_` and the list of open
sockets; their actions come in any order, between new connections and the stop of the server.

* `runSession`            one session, action by action;
* `System.step`           connections, actions of sessions, and the stop;
* `runSession_follows`    **a session keeps to its phases**: acquire, reset, feed, reset, release;
* `next_cases`            what one allowed action does to the log and to the phase.
-/

namespace LiberaLink.Protocol
open Stepwise

/-- what a session does to the endpoint it shares with the others -/
inductive SessionEvent where
  | acquired
  | call (c : SinkCall)
  | released
  deriving DecidableEq

structure ServerState where
  running : Bool
  sessionOwned : Bool
  activeSockets : List Nat
  /-- acquisitions, calls of the sink and releases, by session -/
  log : List (Nat × SessionEvent)
  /-- what was written to the sockets -/
  sent : List (Nat × Reply)

/-- the atomic actions of a session -/
inductive SessionAct where
  | poll
  | tryAcquire
  | call (c : SinkCall)
  | send (reply : Reply)
  | release
  | close

def ServerState.act (s : ServerState) (id : Nat) : SessionAct → ServerState
  | .poll => s
  | .tryAcquire =>
    if s.sessionOwned then s
    else { s with sessionOwned := true, log := s.log ++ [(id, .acquired)] }
  | .call c => { s with log := s.log ++ [(id, .call c)] }
  | .send reply => { s with sent := s.sent ++ [(id, reply)] }
  | .release => { s with sessionOwned := false, log := s.log ++ [(id, .released)] }
  | .close => { s with activeSockets := s.activeSockets.filter fun socket => socket ≠ id }

/-- what a record called and sent -/
def Handled.acts (h : Handled) : List SessionAct :=
  (h.call.map SessionAct.call).toList ++ (h.reply.map SessionAct.send).toList

abbrev SessionM := Prog (Nat × SessionAct) ServerState

/-- What the network gives to one session.  When the records are used up the client is silent and the
next read runs into its timeout. -/
structure Client where
  hello : Delivery
  /-- the answer to the hello can be written -/
  accepted : Bool
  /-- the clock when the session begins -/
  now : Int
  ready : Delivery
  /-- for each record: the socket is open, the record, and whether an answer can be written -/
  records : List (Bool × Delivery × Bool)

namespace TargetServer
variable (srv : TargetServer) (id : Nat)

def perform (a : SessionAct) : SessionM Unit := Prog.modify (id, a) fun s => s.act id a

def isRunning : SessionM Bool := Prog.exchange (id, .poll) (fun s => s.running) fun s => s.act id .poll

/-- the compare-exchange of `sessionOwned_` from `false` to `true` -/
def tryAcquireSession : SessionM Bool :=
  Prog.exchange (id, .tryAcquire) (fun s => !s.sessionOwned) fun s => s.act id .tryAcquire

def releaseSession : SessionM Unit := perform id .release

def performAll : List SessionAct → SessionM Unit
  | [] => pure ()
  | a :: rest => do
    perform id a
    performAll rest

/-- the loop over the records of an accepted session -/
def sessionLoop : List (Bool × Delivery × Bool) → SessionState → SessionM Unit
  | [], _ => do
    let _ ← isRunning id
    pure ()
  | (isOpen, delivery, written) :: rest, state => do
    if (← isRunning id) && isOpen then
      match readRecord srv.options delivery with
      | .error _ => pure ()
      | .ok record => do
        let handled := handleRecord srv state record written
        performAll id handled.acts
        if handled.ok then sessionLoop rest handled.state else pure ()
    else pure ()

/-- the part of `runSession` between the acquisition and the last reset -/
def serveSession (hello : Hello) (client : Client) : SessionM Unit := do
  perform id (.call .reset)
  let state := negotiate srv hello client.now
  perform id (.send (.accept (makeAccept srv state)))
  if client.accepted then
    match readRecord srv.options client.ready with
    | .error _ => pure ()
    | .ok record => if record.type = .ready then sessionLoop srv id client.records state else pure ()
  else pure ()

def runSession (client : Client) : SessionM Unit :=
  if srv.sink.isNone then pure () else
  match readRecord srv.options client.hello with
  | .error _ => pure ()
  | .ok record =>
    if record.type ≠ .hello then pure () else
    match srv.codec.decodeHello record.payload with
    | .error error => perform id (.send (.reject .malformedHello error))
    | .ok hello => do
      if ← tryAcquireSession id then do
        serveSession srv id hello client
        perform id (.call .reset)
        releaseSession id
      else perform id (.send (.reject .busy "Endpoint already has an active session."))

/-- the body of the thread of a session -/
def sessionThread (client : Client) : SessionM Unit := do
  runSession srv id client
  perform id .close

end TargetServer

/-! ## the server -/

structure System where
  state : ServerState
  threads : List (SessionM Unit)
  /-- the thread of `acceptLoop` is in its loop -/
  accepting : Bool

def maxConcurrentSockets : Nat := 32

/-- a server that has just been started -/
def System.started : System where
  state := ⟨true, false, [], [], []⟩
  threads := []
  accepting := true

inductive ServerInput where
  /-- `acceptLoop` accepts a connection; `configured` says whether its socket can be set up -/
  | connect (client : Client) (configured : Bool)
  /-- one action of a session -/
  | run (id : Nat)
  /-- the exchange of `running_` in `stop` -/
  | stop
  /-- `acceptLoop` sees that the server does not run any more -/
  | acceptExit
  /-- `stop` has joined the threads -/
  | joined

def System.step (srv : TargetServer) (y : System) : ServerInput → System
  | .connect client configured =>
    if y.accepting && decide (y.state.activeSockets.length < maxConcurrentSockets) && configured then
      { y with
        state := { y.state with activeSockets := y.state.activeSockets ++ [y.threads.length] }
        threads := y.threads ++ [srv.sessionThread y.threads.length client] }
    else y
  | .run id => {
      y with
      state := (Prog.fireThread id y.threads y.state).2
      threads := (Prog.fireThread id y.threads y.state).1 }
  | .stop => { y with state := { y.state with running := false } }
  | .acceptExit => if y.state.running then y else { y with accepting := false }
  | .joined =>
    if !y.state.running && !y.accepting && y.threads.all fun p => decide p.Finished then
      { y with state := { y.state with activeSockets := [] } }
    else y

/-- a state that the server can come to from its start, whatever the clients and the order -/
def Reachable (srv : TargetServer) : System → Prop :=
  Reach (System.step srv) (fun _ _ => True) System.started

/-! ## the phases of a session -/

inductive Phase where
  | waiting | acquired | streaming | drained | gone
  deriving DecidableEq

/-- what an event does to the phase of its session -/
inductive Phase.Move : Phase → SessionEvent → Phase → Prop where
  | acquire : Move .waiting .acquired .acquired
  | reset : Move .acquired (.call .reset) .streaming
  | feed {c : SinkCall} (hc : c.Feeds) : Move .streaming (.call c) .streaming
  | drain : Move .streaming (.call .reset) .drained
  | release : Move .drained .released .gone

def Phase.next (p : Phase) (s : ServerState) : SessionAct → Option Phase
  | .poll => some p
  | .send _ => some p
  | .close => some p
  | .tryAcquire =>
    if p = .waiting then some (if s.sessionOwned then .waiting else .acquired) else none
  | .call c =>
    if p = .acquired ∧ c = .reset then some .streaming
    else if p = .streaming ∧ c = .reset then some .drained
    else if p = .streaming ∧ c.Feeds then some .streaming
    else none
  | .release => if p = .drained then some .gone else none

/-- The typestate of the sessions: a session acts under its own number, and as its phase allows. -/
def sessions : Typestate (Nat × SessionAct) ServerState (Nat × Phase) where
  effect l s := s.act l.1 l.2
  next t l s := if l.1 = t.1 then (t.2.next s l.2).map fun p => (t.1, p) else none

/-- the phases a session may end in -/
def Ended (t : Nat × Phase) : Prop := t.2 = .waiting ∨ t.2 = .gone

/-- **What an allowed action does**: it leaves the log and the ownership alone, or it logs one event
that moves the phase of its session. -/
theorem next_cases {i : Nat} {p : Phase} {l : Nat × SessionAct} {s : ServerState} {t : Nat × Phase}
    (h : sessions.next (i, p) l s = some t) :
    (t = (i, p) ∧ (sessions.effect l s).log = s.log ∧
      (sessions.effect l s).sessionOwned = s.sessionOwned) ∨
    ∃ e p', t = (i, p') ∧ Phase.Move p e p' ∧ (sessions.effect l s).log = s.log ++ [(i, e)] ∧
      (e = .acquired → s.sessionOwned = false) ∧
      (sessions.effect l s).sessionOwned =
        (if e = .acquired then true else if e = .released then false else s.sessionOwned) := by
  obtain ⟨j, a⟩ := l
  by_cases hij : j = i
  · subst hij
    simp only [sessions, if_pos] at h ⊢
    obtain ⟨p', hp, rfl⟩ := Option.map_eq_some_iff.mp h
    cases a with
    | poll => exact .inl ⟨by rw [Option.some.inj hp], rfl, rfl⟩
    | send reply => exact .inl ⟨by rw [Option.some.inj hp], rfl, rfl⟩
    | close => exact .inl ⟨by rw [Option.some.inj hp], rfl, rfl⟩
    | tryAcquire =>
      unfold Phase.next at hp
      cases ho : s.sessionOwned with
      | true =>
        simp [ho] at hp
        obtain ⟨rfl, rfl⟩ := hp
        exact .inl ⟨rfl, by simp [ServerState.act, ho], by simp [ServerState.act, ho]⟩
      | false =>
        simp [ho] at hp
        obtain ⟨rfl, rfl⟩ := hp
        exact .inr ⟨.acquired, .acquired, rfl, .acquire, by simp [ServerState.act, ho],
          fun _ => rfl, by simp [ServerState.act, ho]⟩
    | call c =>
      unfold Phase.next at hp
      simp only at hp
      refine .inr ⟨.call c, p', rfl, ?_, rfl, by simp, by simp [ServerState.act]⟩
      split at hp
      · rename_i hc
        obtain ⟨rfl, rfl⟩ := hc
        obtain rfl := Option.some.inj hp
        exact .reset
      · split at hp
        · rename_i hc
          obtain ⟨rfl, rfl⟩ := hc
          obtain rfl := Option.some.inj hp
          exact .drain
        · split at hp
          · rename_i hc
            obtain ⟨rfl, hc⟩ := hc
            obtain rfl := Option.some.inj hp
            exact .feed hc
          · cases hp
    | release =>
      unfold Phase.next at hp
      simp only at hp
      split at hp
      · rename_i hd
        subst hd
        obtain rfl := Option.some.inj hp
        exact .inr ⟨.released, .gone, rfl, .release, rfl, by simp, by simp [ServerState.act]⟩
      · cases hp
  · simp [sessions, hij] at h

/-! ## a session keeps to its phases -/

section
variable {srv : TargetServer} {id : Nat} {p : Phase} {Q : Unit → Nat × Phase → Prop}

theorem follows_perform {a : SessionAct} (p' : Phase) (hnext : ∀ s, p.next s a = some p')
    (h : Q () (id, p')) : sessions.Follows (TargetServer.perform id a) Q (id, p) :=
  Typestate.follows_modify (fun s => by simp [sessions, hnext s]) h

theorem follows_isRunning {Q : Bool → Nat × Phase → Prop} (h : ∀ b, Q b (id, p)) :
    sessions.Follows (TargetServer.isRunning id) Q (id, p) :=
  Typestate.follows_exchange fun s => ⟨(id, p), by simp [sessions, Phase.next], h _⟩

theorem follows_tryAcquire {Q : Bool → Nat × Phase → Prop} (hyes : Q true (id, .acquired))
    (hno : Q false (id, .waiting)) :
    sessions.Follows (TargetServer.tryAcquireSession id) Q (id, .waiting) := by
  refine Typestate.follows_exchange fun s => ?_
  cases ho : s.sessionOwned with
  | true => exact ⟨(id, .waiting), by simp [sessions, Phase.next, ho], hno⟩
  | false => exact ⟨(id, .acquired), by simp [sessions, Phase.next, ho], hyes⟩

/-- the calls and replies of a record keep a session streaming -/
theorem follows_performAll {acts : List SessionAct}
    (hacts : ∀ a ∈ acts, ∀ s, Phase.next .streaming s a = some .streaming)
    (h : Q () (id, .streaming)) :
    sessions.Follows (TargetServer.performAll id acts) Q (id, .streaming) := by
  induction acts with
  | nil => exact h
  | cons a rest ih =>
    rw [TargetServer.performAll, Typestate.follows_bind]
    exact follows_perform _ (hacts a List.mem_cons_self)
      (ih fun b hb => hacts b (List.mem_cons_of_mem _ hb))

theorem next_of_handled (state : SessionState) (record : Record) (written : Bool) {a : SessionAct}
    (ha : a ∈ (handleRecord srv state record written).acts) (s : ServerState) :
    Phase.next .streaming s a = some .streaming := by
  rcases List.mem_append.mp ha with ha | ha
  · obtain ⟨c, hc, rfl⟩ := Option.map_eq_some_iff.mp (Option.mem_toList.mp ha)
    have hfeeds := handleRecord_feeds srv state record written hc
    have hreset : c ≠ .reset := by
      rintro rfl
      exact hfeeds
    simp [Phase.next, hreset, hfeeds]
  · obtain ⟨r, _, rfl⟩ := Option.map_eq_some_iff.mp (Option.mem_toList.mp ha)
    rfl

theorem follows_sessionLoop (records : List (Bool × Delivery × Bool)) (state : SessionState)
    (h : Q () (id, .streaming)) :
    sessions.Follows (srv.sessionLoop id records state) Q (id, .streaming) := by
  induction records generalizing state with
  | nil =>
    rw [TargetServer.sessionLoop, Typestate.follows_bind]
    exact follows_isRunning fun _ => h
  | cons r rest ih =>
    obtain ⟨isOpen, delivery, written⟩ := r
    rw [TargetServer.sessionLoop, Typestate.follows_bind]
    refine follows_isRunning fun b => ?_
    split
    · split
      · exact h
      · rw [Typestate.follows_bind]
        refine follows_performAll (fun a ha => next_of_handled _ _ _ ha) ?_
        split
        · exact ih _
        · exact h
    · exact h

theorem follows_serveSession (hello : Hello) (client : Client) (h : Q () (id, .streaming)) :
    sessions.Follows (srv.serveSession id hello client) Q (id, .acquired) := by
  rw [TargetServer.serveSession, Typestate.follows_bind]
  refine follows_perform .streaming (fun s => by simp [Phase.next]) ?_
  simp only [Typestate.follows_bind]
  refine follows_perform .streaming (fun _ => rfl) ?_
  split
  · split
    · exact h
    · split
      · exact follows_sessionLoop _ _ h
      · exact h
  · exact h

/-- **A session keeps to its phases**: it never gets the endpoint, or it acquires it, resets the target,
feeds it, resets it again and releases the endpoint. -/
theorem runSession_follows (client : Client) :
    sessions.Follows (srv.runSession id client) (fun _ t => t.1 = id ∧ Ended t) (id, .waiting) := by
  unfold TargetServer.runSession
  split
  · exact ⟨rfl, .inl rfl⟩
  · split
    · exact ⟨rfl, .inl rfl⟩
    · split
      · exact ⟨rfl, .inl rfl⟩
      · split
        · exact follows_perform _ (fun _ => rfl) ⟨rfl, .inl rfl⟩
        · rw [Typestate.follows_bind]
          refine follows_tryAcquire ?_ ?_
          · simp only [if_true, Typestate.follows_bind]
            refine follows_serveSession _ _ ?_
            refine follows_perform .drained (fun s => by simp [Phase.next]) ?_
            exact follows_perform .gone (fun s => by simp [Phase.next]) ⟨rfl, .inr rfl⟩
          · exact follows_perform _ (fun _ => rfl) ⟨rfl, .inl rfl⟩

theorem sessionThread_follows (client : Client) :
    sessions.Follows (srv.sessionThread id client) (fun _ => Ended) (id, .waiting) := by
  rw [TargetServer.sessionThread, Typestate.follows_bind]
  refine Typestate.follows_mono (runSession_follows client) fun _ t ht => ?_
  obtain ⟨i, p⟩ := t
  obtain ⟨rfl, hp⟩ := ht
  exact follows_perform _ (fun _ => rfl) hp

end
end LiberaLink.Protocol
