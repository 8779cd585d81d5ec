import Fosipcore.Core.Dispatch
import Fosipcore.Library.Machine

/-!
# Session state is all or nothing

A session has a camera, credentials, a video server, a live port and a listener, or it has none of
them. The fields are optional one by one, and they are written in four places: so the session is
compared with one that has all of them in one value. Of this session, a login sets everything or the
credentials alone, a logout takes everything, and no other message changes it.

Other sessions and listener tasks change the pool at any time.

## Main definitions

* `Armed`, `Armed.Step`: a session with its fields in one value, and what a message does to it
* `Session.Represents`: the fields of a session are those of one value, or of none
* `Session.Event`, `Session.step`: messages, and the changes of the pool by others

## Main results

* `Session.Represents.processMessage`: processing a message refines a step
* `Session.run_allOrNothing`: what holds of a session after every message
-/

namespace Fosipcore

namespace Dispatch

open Text Login MsgId Machine

/-! ## Armed sessions -/

/-- What an armed session has. -/
structure Armed where
  camera : CameraInfo
  user : Str
  pwd : Str
  video : ℕ
  livePort : UInt16
  videoListener : ℕ

/-- What a message does that is no logout: a login arms the session, or it sets the credentials of a
session that is armed. -/
inductive Armed.Step : Option Armed → Option Armed → Prop
  | keep (a : Option Armed) : Step a a
  | arm (a : Armed) : Step none (some a)
  | setAuth (a : Armed) (user pwd : Str) : Step (some a) (some { a with user := user, pwd := pwd })

/-- The optional fields of a session. -/
def Armed.session (a : Option Armed) : SessionState :=
  ⟨a.map camera, a.map user, a.map pwd, a.map video, a.map livePort⟩

/-- The live port of a session that stays armed. -/
theorem Armed.Step.livePort {a a' : Option Armed} (h : Step a a') {port : UInt16}
    (hport : a.map Armed.livePort = some port) : a'.map Armed.livePort = some port := by
  cases h with
  | keep => exact hport
  | arm => cases hport
  | setAuth => exact hport

/-! ## Logins -/

variable {isRelogin : Bool} {origin : Option OriginInfo} {state : State} {cmdObject : Option Json}
  {world : Login.World}

theorem apply_of_effect {action : Action} (h : action.effect = .default) (pool : PortPool) :
    state.apply action pool = { state with pool := pool } := by
  obtain ⟨newCamera, newAuth, newVideo, responses⟩ := action
  obtain ⟨rfl, rfl, rfl⟩ := DispatchAction.mk.inj h
  simp only [State.apply, Option.or_none]

namespace Session

/-! ## The fields of a session -/

/-- The fields of a session are those of one value, or of none. -/
def Represents (s : State) (a : Option Armed) : Prop :=
  s.session = Armed.session a ∧ s.videoListener = a.map Armed.videoListener

/-- **All or nothing.** -/
def AllOrNothing (s : Session) : Prop :=
  (s.session.camera.isSome ∧ s.session.user.isSome ∧ s.session.pwd.isSome ∧
      s.session.video.isSome ∧ s.session.livePort.isSome ∧ s.videoListener.isSome) ∨
    (s.session.camera = none ∧ s.session.user = none ∧ s.session.pwd = none ∧
      s.session.video = none ∧ s.session.livePort = none ∧ s.videoListener = none)

theorem Represents.allOrNothing {s : Session} {a : Option Armed} (h : Represents s.toState a) :
    s.AllOrNothing := by
  obtain ⟨hsession, hlistener⟩ := h
  rw [AllOrNothing, hsession, hlistener]
  cases a with
  | none => exact .inr ⟨rfl, rfl, rfl, rfl, rfl, rfl⟩
  | some a => exact .inl ⟨rfl, rfl, rfl, rfl, rfl, rfl⟩

/-- A login that comes to something arms a session, or sets the credentials of an armed one. -/
theorem Represents.apply {a : Option Armed} (h : Represents state a) (camera : CameraInfo)
    (auth : Str × Str) {livePort : UInt16} {newVideo : Option UInt16} {probe : ℕ → UInt16 → Bool}
    (hensure : (Login.ensureSessionVideo state probe).1 = some (livePort, newVideo))
    (responses : List Str) (pool : PortPool) :
    ∃ a', Armed.Step a a' ∧
      Represents (state.apply ⟨some camera, some auth, newVideo, responses⟩ pool) a' := by
  obtain ⟨hsession, hlistener⟩ := h
  rw [Login.ensureSessionVideo, hsession] at hensure
  cases a with
  | none =>
    obtain ⟨port, -, hport⟩ : ∃ port, (state.pool.alloc probe).1 = some port ∧
        (port, some port) = (livePort, newVideo) := Option.map_eq_some_iff.mp hensure
    obtain ⟨rfl, rfl⟩ := Prod.mk.inj hport
    refine ⟨_, .arm ⟨camera, auth.1, auth.2, state.servers, port, state.servers⟩, ?_, rfl⟩
    simp only [State.apply, hsession]
    rfl
  | some a =>
    have hnew : some (a.livePort, none) = some (livePort, newVideo) := hensure
    obtain ⟨rfl, rfl⟩ := Prod.mk.inj (Option.some.inj hnew)
    refine ⟨_, .setAuth a auth.1 auth.2, ?_, hlistener⟩
    simp only [State.apply, hsession]
    rfl

theorem Represents.processLogin {a : Option Armed} (h : Represents state a) :
    ∃ a', Armed.Step a a' ∧
      Represents (Login.processLogin isRelogin origin state cmdObject world).1 a' := by
  rw [Login.processLogin]
  dsimp only
  have houtcome := dispatchLogin_outcome isRelogin origin state cmdObject world
  generalize (dispatchLogin isRelogin origin state cmdObject world).1 = action at houtcome ⊢
  cases houtcome with
  | error =>
    rw [apply_of_effect rfl]
    exact ⟨a, .keep a, h⟩
  | failed =>
    rw [apply_of_effect (failedLoginAction_effect _)]
    exact ⟨a, .keep a, h⟩
  | armed camera auth resp hensure => exact h.apply camera auth hensure _ _

/-! ## Messages -/

variable {s : Session} {msg : WsMessage} {w : World}

/-- **A message other than a logout** refines a step, and releases nothing. -/
theorem Represents.processMessage {a : Option Armed} (h : Represents s.toState a)
    (origin : Option OriginInfo) (w : World) (hmsg : msg.msgId ≠ wsRequestLogout) :
    (s.processMessage origin msg w).2.1 = [] ∧
      ∃ a', Armed.Step a a' ∧ Represents (s.processMessage origin msg w).1.toState a' := by
  cases hkind : loginKind msg.msgId with
  | some isRelogin =>
    rw [processMessage_login hkind]
    exact ⟨rfl, h.processLogin⟩
  | none =>
    obtain ⟨responses, hdispatch⟩ := dispatchMessage_other origin s.toState w hkind
    have happly : s.toState.apply { Action.default with responses := responses } s.pool =
        s.toState := apply_of_effect rfl s.pool
    rw [Session.processMessage, hdispatch]
    dsimp only
    rw [happly, if_neg fun hlogout => hmsg hlogout.2]
    refine ⟨rfl, a, .keep a, ?_⟩
    split_ifs
    · exact h
    · exact h

/-- **A logout** takes everything, and releases the live port. -/
theorem Represents.processMessage_logout {a : Option Armed} (h : Represents s.toState a)
    (hmsg : msg.msgId = wsRequestLogout) :
    (s.processMessage origin msg w).1 =
        .new (s.session.livePort.elim s.pool s.pool.release) s.servers ∧
      (s.processMessage origin msg w).2.1 = s.session.livePort.toList := by
  obtain ⟨hsession, hlistener⟩ := h
  have hother : loginKind msg.msgId = none := by
    rw [hmsg]
    rfl
  obtain ⟨responses, hdispatch⟩ := dispatchMessage_other origin s.toState w hother
  have happly : s.toState.apply { Action.default with responses := responses } s.pool =
      s.toState := apply_of_effect rfl s.pool
  have hclose : msg.msgId ≠ wsRequestOpenVideo := by
    rw [hmsg]
    decide
  rw [Session.processMessage, hdispatch]
  dsimp only
  rw [happly, if_neg hclose, if_pos ⟨rfl, hmsg⟩]
  obtain ⟨⟨session, videoListener, pool, servers⟩, streamType⟩ := s
  dsimp only at hsession hlistener
  subst hsession hlistener
  -- the teardown takes the listener only if there are a video server and a port
  cases a with
  | none => exact ⟨rfl, rfl⟩
  | some a => exact ⟨rfl, rfl⟩

/-! ## Runs -/

/-- What can happen to a session: a message, or a change of the pool by other sessions and by
listener tasks. -/
inductive Event where
  | message (msg : WsMessage) (world : World)
  | others (pool : PortPool)

def step (origin : Option OriginInfo) (s : Session) : Event → Option Session
  | .message msg world => some (s.processMessage origin msg world).1
  | .others pool => some { s with pool := pool }

/-- The fields of a session are all in one value, or there are none. -/
def Uniform (s : Session) : Prop := ∃ a, Represents s.toState a

theorem uniform_new (pool : PortPool) (servers : ℕ) : (new pool servers).Uniform :=
  ⟨none, rfl, rfl⟩

theorem Uniform.step {s' : Session} {e : Event} (h : s.Uniform)
    (hstep : s.step origin e = some s') : s'.Uniform := by
  obtain ⟨a, ha⟩ := h
  cases e with
  | message msg world =>
    obtain rfl := Option.some.inj hstep
    by_cases hmsg : msg.msgId = wsRequestLogout
    · rw [(ha.processMessage_logout hmsg).1]
      exact uniform_new _ _
    · obtain ⟨-, a', -, ha'⟩ := ha.processMessage origin world hmsg
      exact ⟨a', ha'⟩
  | others pool =>
    obtain rfl := Option.some.inj hstep
    exact ⟨a, ha⟩

/-- A live port is kept, until there is none. -/
theorem Uniform.livePort (h : s.Uniform) (origin : Option OriginInfo) (msg : WsMessage) (w : World)
    {port : UInt16} (hport : s.session.livePort = some port) :
    (s.processMessage origin msg w).1.session.livePort = some port ∨
      (s.processMessage origin msg w).1.session.livePort = none := by
  obtain ⟨a, ha⟩ := h
  by_cases hmsg : msg.msgId = wsRequestLogout
  · rw [(ha.processMessage_logout hmsg).1]
    exact .inr rfl
  · obtain ⟨-, a', hstep, hsession, -⟩ := ha.processMessage origin w hmsg
    rw [ha.1] at hport
    rw [hsession]
    exact .inl (hstep.livePort hport)

/-- **Session state is all or nothing** after every message. No message puts another live port in the
place of one, and none but a logout releases a port. After a logout the session is a new one, and the
port that it held has been released, once. The release by a listener that could not be bound is no
step of the session, and is not counted. -/
theorem run_allOrNothing {pool : PortPool} {servers : ℕ} {es : List Event}
    (h : Run (step origin) free (new pool servers) es s) :
    s.AllOrNothing ∧ ∀ (msg : WsMessage) (world : World),
      (∀ port, s.session.livePort = some port →
        (s.processMessage origin msg world).1.session.livePort = some port ∨
          (s.processMessage origin msg world).1.session.livePort = none) ∧
      (msg.msgId ≠ wsRequestLogout → (s.processMessage origin msg world).2.1 = []) ∧
      (msg.msgId = wsRequestLogout →
        (s.processMessage origin msg world).1 =
            .new (s.session.livePort.elim s.pool s.pool.release) s.servers ∧
          (s.processMessage origin msg world).2.1 = s.session.livePort.toList) := by
  have huniform : s.Uniform := h.invariant (fun _ _ _ hs _ => hs.step) (uniform_new pool servers)
  have ⟨a, ha⟩ := huniform
  refine ⟨ha.allOrNothing, fun msg world => ⟨fun port hport => ?_, fun hmsg => ?_, fun hmsg => ?_⟩⟩
  · exact huniform.livePort origin msg world hport
  · exact (ha.processMessage origin world hmsg).1
  · exact ha.processMessage_logout hmsg

/-! ## A session -/

/-- A page of a camera. -/
def cameraPage : Option OriginInfo := some ⟨"192.168.1.10".toList, 88⟩

/-- The login of the page. -/
def loginMessage : WsMessage :=
  { WsMessage.new wsRequestLogin with
    cmdObject := some (.object [("ip".toList, .string "192.168.1.10".toList),
      ("pwd".toList, .string "x".toList), ("usr".toList, .string "admin".toList)]) }

/-- A camera that accepts every login, and answers no other request. -/
def accepting : World where
  lookupHost := none
  login := some ⟨200, "200 OK".toList, []⟩
  query _ := none
  probe _ _ := true
  get _ := .error []
  snapshot _ := .error []

/-- The port of a login is released by the logout. -/
theorem run_allOrNothing_logout :
    ∃ s, Run (step cameraPage) free (new (.new 11000 1) 0) [.message loginMessage accepting] s ∧
      (s.processMessage cameraPage (.new wsRequestLogout) accepting).2.1 = [11000] := by
  have hexec : (exec (step cameraPage) free (new (.new 11000 1) 0)
      [.message loginMessage accepting]).map (fun s => s.session.livePort) =
        some (some 11000) := by
    decide +kernel
  obtain ⟨s, hrun, hport⟩ := Run.of_exec_map hexec
  have hreleased := (((run_allOrNothing hrun).2 (.new wsRequestLogout) accepting).2.2 rfl).2
  rw [hport] at hreleased
  exact ⟨s, hrun, hreleased⟩

end Session

end Dispatch

end Fosipcore
