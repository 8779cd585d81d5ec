import Fosipcore.Core.AllOrNothing
import Fosipcore.Core.Inbound
import Fosipcore.Library.WebSocket

/-!
# The message loop of a core connection

The core server greets a connection, and then processes its messages one at a time. The responses to
a message are sent before the next one is read. However the connection ends, its session is torn down
behind the loop. Other connections use the pool in the meantime, so that every message comes with the
pool as it finds it.

The log is taken to be off: what its excerpts do to a connection is in `Core.LogExcerpts`.

## Main definitions

* `Connected`: a session, with the ports that it was given and has released
* `handleText`, `processTurn`: a text is processed, and a message
* `handleConnection`: a connection behind its handshake

## Main results

* `length_responses`: a message has at most three responses
* `Connected.Balanced`: all ports but the live one were released
* `handleConnection_transcript`: what is sent in a connection
* `handleConnection_tornDown`: what is left of its session
-/

namespace Fosipcore

abbrev MsgId.helloCmd : ℕ := 1000000

namespace Dispatch

open Text Login MsgId Trace Transducer WebSocket

/-! ## The loop -/

/-- What the world answers to a message, and the pool as the message finds it. -/
structure Turn where
  world : World
  pool : PortPool

/-- The session of a connection. The ports that its logins were given and those that were released
are in order; no handler looks at them. -/
structure Connected where
  session : Session
  allocated : List UInt16
  released : List UInt16

namespace Connected

/-- The session of a connection that has just begun. -/
def new (pool : PortPool) (servers : ℕ) : Connected := ⟨.new pool servers, [], []⟩

/-- The session, on the pool as it is. -/
def found (c : Connected) (pool : PortPool) : Session := { c.session with pool := pool }

/-- The teardown behind the loop. -/
def teardown (c : Connected) : Connected :=
  let (session, released) := c.session.teardownVideo
  { c with session := session, released := c.released ++ released }

end Connected

/-- Process a message, on the pool as it is. -/
def processTurn (origin : Option OriginInfo) (c : Connected) (input : WsMessage × Turn) :
    List Str × Connected :=
  let (msg, turn) := input
  let found := c.found turn.pool
  let allocated := (dispatchMessage origin found.toState msg turn.world).1.newVideo
  let (session, released, responses) := found.processMessage origin msg turn.world
  (responses, ⟨session, c.allocated ++ allocated.toList, c.released ++ released⟩)

/-- Process a text: one that is no message is skipped. -/
def handleText (parse : Str → Option Json) (origin : Option OriginInfo) (c : Connected)
    (input : Str × Turn) : List Str × Connected :=
  match WsMessage.fromStr parse input.1 with
  | none => ([], c)
  | some msg => processTurn origin c (msg, input.2)

/-- The greeting. -/
def hello : Str := (WsMessage.new helloCmd).print

/-- A connection behind its handshake: the greeting, the loop, and the teardown. A connection that
can not be greeted ends before it has a session. -/
def handleConnection (parse : Str → Option Json) (origin : Option OriginInfo) (pool : PortPool)
    (servers : ℕ) (greeted : Bool) (es : List (Event Turn)) : Outcome Connected :=
  if greeted then
    let o := serve (handleText parse origin) (.new pool servers) es
    ⟨o.state.teardown, reply hello :: o.sent, o.ok⟩
  else ⟨.new pool servers, [], false⟩

/-! ## The responses to a message -/

variable {origin : Option OriginInfo} {state : State} {s : Session} {msg : WsMessage}
  {world : World}

theorem length_loginResponses (isRelogin : Bool) (world : Login.World) (livePort : UInt16)
    (resp : CgiResponse) : (loginResponses isRelogin world livePort resp).length ≤ 3 := by
  rw [loginResponses]
  split
  rename_i productXml initInfo _
  cases productXml with
  | none => exact Nat.le_succ 2
  | some xml => exact Nat.le_refl 3

theorem length_toList_le {α : Type*} (o : Option α) : o.toList.length ≤ 1 := by
  cases o with
  | none => exact Nat.zero_le 1
  | some => exact Nat.le_refl 1

theorem length_responses_other (h : loginKind msg.msgId = none) :
    (dispatchMessage origin state msg world).1.responses.length ≤ 1 := by
  unfold dispatchMessage
  split
  case h_1 heq => rw [heq] at h; cases h
  case h_2 heq => rw [heq] at h; cases h
  case h_6 => exact length_toList_le _
  case h_7 => exact length_toList_le _
  all_goals first | exact Nat.le_refl 1 | exact Nat.zero_le 1

/-- **A message has at most three responses.** -/
theorem length_responses (origin : Option OriginInfo) (s : Session) (msg : WsMessage)
    (world : World) : (s.processMessage origin msg world).2.2.length ≤ 3 := by
  change (dispatchMessage origin s.toState msg world).1.responses.length ≤ 3
  cases hkind : loginKind msg.msgId with
  | some isRelogin =>
    rw [dispatchMessage_login hkind]
    have houtcome := dispatchLogin_outcome isRelogin origin s.toState msg.cmdObject world.toWorld
    generalize (dispatchLogin isRelogin origin s.toState msg.cmdObject world.toWorld).1 = action
      at houtcome ⊢
    cases houtcome with
    | error => exact Nat.zero_le 3
    | failed => exact Nat.le_add_left 1 2
    | armed => exact length_loginResponses ..
  | none => exact (length_responses_other hkind).trans (Nat.le_add_left 1 2)

/-! ## The ports of a connection -/

/-- A login is given a port only if its session has none. -/
theorem livePort_of_newVideo {port : UInt16}
    (h : (dispatchMessage origin state msg world).1.newVideo = some port) :
    state.session.livePort = none := by
  cases hkind : loginKind msg.msgId with
  | some isRelogin =>
    rw [dispatchMessage_login hkind] at h
    have houtcome := dispatchLogin_outcome isRelogin origin state msg.cmdObject world.toWorld
    generalize (dispatchLogin isRelogin origin state msg.cmdObject world.toWorld).1 = action
      at houtcome h
    cases houtcome with
    | error => cases h
    | failed => cases h
    | armed camera auth resp hensure =>
      rw [Login.ensureSessionVideo] at hensure
      cases hlive : state.session.livePort with
      | none => rfl
      | some livePort =>
        rw [hlive] at hensure
        obtain ⟨-, hnew⟩ := Prod.mk.inj (Option.some.inj hensure)
        rw [← hnew] at h
        cases h
  | none =>
    obtain ⟨responses, hdispatch⟩ := dispatchMessage_other origin state world hkind
    rw [hdispatch] at h
    cases h

/-- A new video server comes with its port, and otherwise the session keeps its own. -/
theorem livePort_apply (state : State) (action : Action) (pool : PortPool) :
    (state.apply action pool).session.livePort = action.newVideo.or state.session.livePort := by
  obtain ⟨newCamera, newAuth, newVideo, responses⟩ := action
  cases newVideo <;> cases newAuth <;> rfl

/-- The live port behind a message that is no logout. -/
theorem livePort_processMessage (hmsg : msg.msgId ≠ wsRequestLogout) :
    (s.processMessage origin msg world).1.session.livePort =
      (dispatchMessage origin s.toState msg world).1.newVideo.or s.session.livePort := by
  have hstay : ¬ ((dispatchMessage origin s.toState msg world).1.newAuth = none ∧
      msg.msgId = wsRequestLogout) := fun hlogout => hmsg hlogout.2
  rw [Session.processMessage]
  dsimp only
  rw [if_neg hstay, ← livePort_apply s.toState _ (dispatchMessage origin s.toState msg world).2]
  split_ifs <;> rfl

namespace Connected

variable {c : Connected}

/-- **The ports of a connection**: the session is all or nothing, and all ports that it was given
were released in their order, but for the live one. -/
structure Balanced (c : Connected) : Prop where
  uniform : c.session.Uniform
  ports : c.allocated = c.released ++ c.session.session.livePort.toList

theorem balanced_new (pool : PortPool) (servers : ℕ) : (new pool servers).Balanced :=
  ⟨Session.uniform_new pool servers, rfl⟩

/-- **Every message** keeps the ports balanced. -/
theorem Balanced.processTurn (h : c.Balanced) (origin : Option OriginInfo)
    (input : WsMessage × Turn) : (Dispatch.processTurn origin c input).2.Balanced := by
  obtain ⟨msg, turn⟩ := input
  obtain ⟨⟨a, ha⟩, hports⟩ := h
  have hfound : Session.Represents (c.found turn.pool).toState a := ha
  have hlive : (c.found turn.pool).session.livePort = c.session.session.livePort := rfl
  by_cases hmsg : msg.msgId = wsRequestLogout
  · -- a logout releases the live port, and leaves a new session
    obtain ⟨hsession, hreleased⟩ : ((c.found turn.pool).processMessage origin msg turn.world).1 =
          .new _ _ ∧ ((c.found turn.pool).processMessage origin msg turn.world).2.1 = _ :=
      hfound.processMessage_logout hmsg
    have hother : loginKind msg.msgId = none := by
      rw [hmsg]
      rfl
    obtain ⟨responses, hdispatch⟩ :=
      dispatchMessage_other origin (c.found turn.pool).toState turn.world hother
    constructor
    · rw [Dispatch.processTurn]
      dsimp only
      rw [hsession]
      exact Session.uniform_new _ _
    · rw [Dispatch.processTurn]
      dsimp only
      rw [hsession, hreleased, hdispatch, hports, hlive]
      rfl
  · obtain ⟨hreleased, a', -, ha'⟩ := hfound.processMessage origin turn.world hmsg
    refine ⟨⟨a', ha'⟩, ?_⟩
    rw [Dispatch.processTurn]
    dsimp only
    rw [hreleased, livePort_processMessage hmsg, List.append_nil, hports, hlive]
    cases hnew : (dispatchMessage origin (c.found turn.pool).toState msg turn.world).1.newVideo with
    | none => exact List.append_nil _
    | some port =>
      -- the session had none
      rw [← hlive, livePort_of_newVideo hnew]
      exact congrArg (· ++ [port]) (List.append_nil _)

/-- The teardown releases the live port. -/
theorem Balanced.teardown (h : c.Balanced) :
    c.teardown.session.session.video = none ∧ c.teardown.session.session.livePort = none ∧
      c.teardown.session.videoListener = none ∧ c.teardown.allocated = c.teardown.released := by
  obtain ⟨⟨a, hsession, hlistener⟩, hports⟩ := h
  obtain ⟨⟨⟨session, videoListener, pool, servers⟩, streamType⟩, allocated, released⟩ := c
  dsimp only at hsession hlistener hports
  subst hsession hlistener
  cases a with
  | none => exact ⟨rfl, rfl, rfl, hports.trans rfl⟩
  | some a => exact ⟨rfl, rfl, rfl, hports⟩

end Connected

/-! ## Connections -/

/-- The messages of some texts; others are none. -/
def messages (parse : Str → Option Json) (inputs : List (Str × Turn)) : List (WsMessage × Turn) :=
  inputs.filterMap fun (text, turn) => (WsMessage.fromStr parse text).map (·, turn)

/-- The messages that a connection brings before it ends. -/
def inbound (parse : Str → Option Json) (es : List (Event Turn)) : List (WsMessage × Turn) :=
  messages parse (texts es)

/-- Texts are processed as their messages. -/
theorem run_handleText (parse : Str → Option Json) (origin : Option OriginInfo) (c : Connected)
    (inputs : List (Str × Turn)) :
    run (handleText parse origin) c inputs = run (processTurn origin) c (messages parse inputs) := by
  refine run_filterMap ?_ ?_ c inputs
  · rintro c ⟨text, turn⟩ input hinput
    obtain ⟨msg, hmsg, rfl⟩ := Option.map_eq_some_iff.mp hinput
    simp only [handleText, hmsg]
  · rintro c ⟨text, turn⟩ hnone
    simp only [handleText, Option.map_eq_none_iff.mp hnone]

theorem length_handleText (parse : Str → Option Json) (origin : Option OriginInfo) (c : Connected)
    (input : Str × Turn) : (handleText parse origin c input).1.length ≤ 3 := by
  rw [handleText]
  cases WsMessage.fromStr parse input.1 with
  | none => exact Nat.zero_le 3
  | some msg => exact length_responses origin (c.found input.2.pool) msg input.2.world

/-- **What is sent in a connection**: the greeting, and then the responses to its messages, each to
the state that the messages before it have left. They are all sent, or the connection is cut off by
the first response that can not be sent: the responses before it have gone out, and none behind it.
Texts that are no messages, other frames, and everything behind the end do not matter. -/
theorem handleConnection_transcript (parse : Str → Option Json) (origin : Option OriginInfo)
    (pool : PortPool) (servers : ℕ) (es : List (Event Turn)) :
    (Checked (Accepts (handleText parse origin) (.new pool servers)) (live es) ∧
        (handleConnection parse origin pool servers true es).state =
          (run (processTurn origin) (.new pool servers) (inbound parse es)).2.teardown ∧
        replies (handleConnection parse origin pool servers true es).sent =
          hello :: (run (processTurn origin) (.new pool servers) (inbound parse es)).1 ∨
      ∃ before e after text msg responses c, es = before ++ e :: after ∧
        (∀ b ∈ before, b.ends = false) ∧
        Checked (Accepts (handleText parse origin) (.new pool servers)) before ∧
        e.content = some text ∧ WsMessage.fromStr parse text = some msg ∧
        run (processTurn origin) (.new pool servers) (inbound parse before) = (responses, c) ∧
        e.accepts < (processTurn origin c (msg, e.world)).1.length ∧
        (handleConnection parse origin pool servers true es).state =
          (processTurn origin c (msg, e.world)).2.teardown ∧
        replies (handleConnection parse origin pool servers true es).sent =
          hello :: (responses ++ (processTurn origin c (msg, e.world)).1.take e.accepts) ∧
        (handleConnection parse origin pool servers true es).ok = false) ∧
    ((handleConnection parse origin pool servers true es).ok = true ∨ (∀ e ∈ es, 3 ≤ e.accepts) →
      (handleConnection parse origin pool servers true es).state =
          (run (processTurn origin) (.new pool servers) (inbound parse es)).2.teardown ∧
        replies (handleConnection parse origin pool servers true es).sent =
          hello :: (run (processTurn origin) (.new pool servers) (inbound parse es)).1) ∧
    ((∃ e ∈ es, e.ends = true) → ∀ more,
      handleConnection parse origin pool servers true (es ++ more) =
        handleConnection parse origin pool servers true es) := by
  have hsent : replies (handleConnection parse origin pool servers true es).sent =
      hello :: replies (serve (handleText parse origin) (.new pool servers) es).sent :=
    List.filterMap_cons_some (content_reply hello)
  have hall : ServedAll (handleText parse origin) (.new pool servers) es
      (serve (handleText parse origin) (.new pool servers) es) →
      (handleConnection parse origin pool servers true es).state =
          (run (processTurn origin) (.new pool servers) (inbound parse es)).2.teardown ∧
        replies (handleConnection parse origin pool servers true es).sent =
          hello :: (run (processTurn origin) (.new pool servers) (inbound parse es)).1 := by
    intro h
    have hstate := h.state_eq
    have hreplies := h.replies_eq
    rw [run_handleText] at hstate hreplies
    exact ⟨congrArg Connected.teardown hstate, hsent.trans (congrArg _ hreplies)⟩
  refine ⟨?_, fun h => hall (serve_all (length_handleText parse origin) h), fun hends more => ?_⟩
  · rcases serve_served (handleText parse origin) (.new pool servers) es with
      h | ⟨before, e, after, text, rfl, h⟩
    · exact .inl ⟨h.accepted, hall h⟩
    · right
      have hrefused := h.refused
      have hstate := h.state_eq
      have hreplies := h.replies_eq
      rw [run_handleText] at hrefused hstate hreplies
      -- a text whose responses could not be sent is a message
      cases hmsg : WsMessage.fromStr parse text with
      | none =>
        rw [handleText, hmsg] at hrefused
        cases hrefused
      | some msg =>
        rw [handleText, hmsg] at hrefused hstate hreplies
        exact ⟨before, e, after, text, msg, _, _, rfl, h.running, h.accepted, h.content, hmsg, rfl,
          hrefused, congrArg Connected.teardown hstate, hsent.trans (congrArg _ hreplies), h.failed⟩
  · simp only [handleConnection, serve_append hends more]

/-- **A connection leaves nothing behind**, however it ends: its session has no video server, no
port and no listener, and all ports that it was given were released, once each and in their order,
whatever the other connections did with the pool. What is counted are the releases of the session: a
listener that could not be bound releases its port as well. -/
theorem handleConnection_tornDown (parse : Str → Option Json) (origin : Option OriginInfo)
    (pool : PortPool) (servers : ℕ) (greeted : Bool) (es : List (Event Turn)) :
    let c := (handleConnection parse origin pool servers greeted es).state
    c.session.session.video = none ∧ c.session.session.livePort = none ∧
      c.session.videoListener = none ∧ c.allocated = c.released := by
  have hbalanced : (serve (handleText parse origin) (.new pool servers) es).state.Balanced := by
    refine serve_invariant (fun c input h => ?_) (Connected.balanced_new pool servers)
    rw [handleText]
    cases WsMessage.fromStr parse input.1 with
    | none => exact h
    | some msg => exact h.processTurn origin (msg, input.2)
  cases greeted with
  | true => exact hbalanced.teardown
  | false => exact ⟨rfl, rfl, rfl, rfl⟩

end Dispatch

end Fosipcore
