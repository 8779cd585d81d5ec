import Fosipcore.Core.Playback

/-!
# The sessions of a core server

Every connection has a session of its own, and all of them share one pool of live ports. Messages of
different connections come in any order. The handler of a message holds the lock of the pool once at
most, so the message is taken to be processed at that moment.

A listener task whose bind fails releases its port, too. As long as this happens only to ports that
no session has any more, the ports in use are those of the sessions, one for each, and no two pages
are told the same port.

## Main definitions

* `CoreServer`, `CoreServer.step`: the connections, their messages, and the ends of connections
* `PortEffect`: what a step does to the ports in use, and to the live port of a session
* `CoreServer.Accounted`: the ports in use are those of the sessions
* `CoreServer.releasesOnce`: a listener task releases no port of a session

## Main results

* `Session.processMessage_ports`: the effect of a message on the ports
* `CoreServer.run_accounted`: what holds of the ports in every run
-/

namespace Fosipcore

namespace Dispatch

open Json Login MsgId Machine

/-! ## Effects on the ports -/

/-- What a step does to the ports in use, and to the live port of the session that it is about: it
keeps both, it takes a free port for a session without one, or it gives the port back. -/
inductive PortEffect (inUse : Finset UInt16) (livePort : Option UInt16) :
    Finset UInt16 → Option UInt16 → Prop
  | keep : PortEffect inUse livePort inUse livePort
  | take (port : UInt16) (hnone : livePort = none) (hfree : port ∉ inUse) :
    PortEffect inUse livePort (insert port inUse) (some port)
  | give : PortEffect inUse livePort (livePort.elim inUse inUse.erase) none

variable {origin : Option OriginInfo} {state : State} {s : Session} {msg : WsMessage} {w : World}

/-- A session without a live port is given a free one. -/
theorem ensureSessionVideo_ports {probe : ℕ → UInt16 → Bool}
    {video : Option (UInt16 × Option UInt16)} {pool : PortPool}
    (h : Login.ensureSessionVideo state probe = (video, pool)) :
    PortEffect state.pool.inUse state.session.livePort pool.inUse
      ((video.bind Prod.snd).or state.session.livePort) := by
  rw [Login.ensureSessionVideo] at h
  cases hlive : state.session.livePort with
  | some port =>
    rw [hlive] at h
    obtain ⟨rfl, rfl⟩ := Prod.mk.inj h
    exact .keep
  | none =>
    rw [hlive] at h
    rcases halloc : state.pool.alloc probe with ⟨_ | port, pool'⟩
    · rw [halloc] at h
      obtain ⟨rfl, rfl⟩ := Prod.mk.inj h
      rw [PortPool.alloc_none halloc]
      exact .keep
    · rw [halloc] at h
      obtain ⟨rfl, rfl⟩ := Prod.mk.inj h
      obtain ⟨hfree, hinUse⟩ := PortPool.alloc_some halloc
      rw [hinUse]
      exact .take port rfl hfree

/-- A login keeps the ports, or takes one for its session. -/
theorem dispatchLogin_ports (isRelogin : Bool) (origin : Option OriginInfo) (state : State)
    (cmdObject : Option Json) (world : Login.World) :
    PortEffect state.pool.inUse state.session.livePort
      (dispatchLogin isRelogin origin state cmdObject world).2.1.inUse
      ((dispatchLogin isRelogin origin state cmdObject world).1.newVideo.or
        state.session.livePort) := by
  rw [dispatchLogin, Login.handleLogin]
  cases cmdObject.bind LoginCmd.fromValue with
  | none => exact .keep
  | some cmd =>
    dsimp only
    cases resolveCamera world.lookupHost (cmd.ip.getD []) (cmd.webPort.getD 88) with
    | none => exact .keep
    | some pinned =>
      cases origin with
      | none => exact .keep
      | some origin =>
        dsimp only
        split_ifs
        · exact .keep
        · cases world.login.map Cgi.cgiResult with
          | none => exact .keep
          | some resp =>
            rcases hensure : Login.ensureSessionVideo state world.probe with
              ⟨_ | ⟨livePort, newVideo⟩, pool⟩
            · exact ensureSessionVideo_ports hensure
            · exact ensureSessionVideo_ports hensure

theorem pool_apply (state : State) (action : Action) (pool : PortPool) :
    (state.apply action pool).pool = pool := by
  obtain ⟨newCamera, newAuth, newVideo, responses⟩ := action
  cases newVideo <;> cases newAuth <;> rfl

/-- The pool behind a message that is no logout. -/
theorem pool_processMessage (hmsg : msg.msgId ≠ wsRequestLogout) :
    (s.processMessage origin msg w).1.pool = (dispatchMessage origin s.toState msg w).2 := by
  have hstay : ¬ ((dispatchMessage origin s.toState msg w).1.newAuth = none ∧
      msg.msgId = wsRequestLogout) := fun hlogout => hmsg hlogout.2
  rw [Session.processMessage]
  dsimp only
  rw [if_neg hstay]
  split_ifs <;> exact pool_apply _ _ _

/-- **The effect of a message on the ports.** -/
theorem Session.processMessage_ports (h : s.Uniform) (origin : Option OriginInfo)
    (msg : WsMessage) (w : World) :
    PortEffect s.pool.inUse s.session.livePort (s.processMessage origin msg w).1.pool.inUse
      (s.processMessage origin msg w).1.session.livePort := by
  by_cases hmsg : msg.msgId = wsRequestLogout
  · obtain ⟨a, ha⟩ := h
    rw [(ha.processMessage_logout hmsg).1]
    have hgive : (s.session.livePort.elim s.pool s.pool.release).inUse =
        s.session.livePort.elim s.pool.inUse s.pool.inUse.erase := by
      cases s.session.livePort <;> rfl
    exact hgive ▸ .give
  · rw [pool_processMessage hmsg, livePort_processMessage hmsg]
    cases hkind : loginKind msg.msgId with
    | some isRelogin =>
      rw [dispatchMessage_login hkind]
      exact dispatchLogin_ports isRelogin origin s.toState msg.cmdObject w.toWorld
    | none =>
      obtain ⟨responses, hdispatch⟩ := dispatchMessage_other origin s.toState w hkind
      rw [hdispatch]
      exact .keep

/-- The end of a connection gives its port back. -/
theorem Session.teardownVideo_ports (h : s.Uniform) :
    PortEffect s.pool.inUse s.session.livePort s.teardownVideo.1.pool.inUse none := by
  obtain ⟨a, hsession, hlistener⟩ := h
  obtain ⟨⟨session, videoListener, pool, servers⟩, streamType⟩ := s
  dsimp only at hsession hlistener
  subst hsession hlistener
  cases a with
  | none => exact .give
  | some a => exact .give

/-! ## The connections -/

/-- A connection: the origin of its page, and its session, until the connection ends. -/
structure Peer where
  origin : Option OriginInfo
  session : Option Session

def Peer.livePort (peer : Peer) : Option UInt16 :=
  peer.session.bind fun session => session.session.livePort

/-- The connections, and the pool and the number of video servers that they share. -/
structure CoreServer where
  pool : PortPool
  servers : ℕ
  peers : List Peer

namespace CoreServer

/-- No connection yet. -/
def new (pool : PortPool) : CoreServer := ⟨pool, 0, []⟩

/-- What can happen: a connection, its messages and its end, and a listener task that releases its
port since the bind has failed. -/
inductive Event where
  | connect (origin : Option OriginInfo)
  | message (i : ℕ) (msg : WsMessage) (world : World)
  | disconnect (i : ℕ)
  | bindFailed (port : UInt16)

/-- A session with what it shares as it is now. -/
def found (s : CoreServer) (session : Session) : Session :=
  { session with pool := s.pool, servers := s.servers }

def step (s : CoreServer) : Event → Option CoreServer
  | .connect origin => some { s with peers := s.peers ++ [⟨origin, some (.new s.pool s.servers)⟩] }
  | .message i msg world => do
    let peer ← s.peers[i]?
    let session ← peer.session
    let session := ((s.found session).processMessage peer.origin msg world).1
    return ⟨session.pool, session.servers, s.peers.set i ⟨peer.origin, some session⟩⟩
  | .disconnect i => do
    let peer ← s.peers[i]?
    let session ← peer.session
    let session := (s.found session).teardownVideo.1
    return ⟨session.pool, session.servers, s.peers.set i ⟨peer.origin, none⟩⟩
  | .bindFailed port => some { s with pool := s.pool.release port }

/-- A listener task releases no port that a session has. -/
def releasesOnce (s : CoreServer) : Event → Prop
  | .bindFailed port => ∀ peer ∈ s.peers, peer.livePort ≠ some port
  | _ => True

instance (s : CoreServer) (e : Event) : Decidable (s.releasesOnce e) :=
  match e with
  | .bindFailed port => inferInstanceAs (Decidable (∀ peer ∈ s.peers, peer.livePort ≠ some port))
  | .connect _ | .message _ _ _ | .disconnect _ => inferInstanceAs (Decidable True)

/-- **The ports in use are those of the sessions**, and every session has one of its own. -/
structure Accounted (s : CoreServer) : Prop where
  uniform : ∀ peer ∈ s.peers, ∀ session ∈ peer.session, session.Uniform
  distinct : ∀ (i j : ℕ) (a b : Peer) (port : UInt16), s.peers[i]? = some a →
    s.peers[j]? = some b → a.livePort = some port → b.livePort = some port → i = j
  inUse : ∀ port, port ∈ s.pool.inUse ↔ ∃ peer ∈ s.peers, peer.livePort = some port

theorem accounted_new {pool : PortPool} (h : pool.inUse = ∅) : (new pool).Accounted where
  uniform := List.forall_mem_nil _
  distinct := by
    rintro i j a b port hi
    cases hi
  inUse port := by
    simp [new, h]

/-- Another connection than `i` has the port. -/
def Elsewhere (s : CoreServer) (i : ℕ) (port : UInt16) : Prop :=
  ∃ j b, j ≠ i ∧ s.peers[j]? = some b ∧ b.livePort = some port

variable {s : CoreServer}

/-- A port is that of the connection `i`, or it is elsewhere. -/
theorem exists_livePort_iff {i : ℕ} {a : Peer} (hi : s.peers[i]? = some a) (port : UInt16) :
    (∃ peer ∈ s.peers, peer.livePort = some port) ↔
      a.livePort = some port ∨ s.Elsewhere i port := by
  constructor
  · rintro ⟨peer, hmem, hport⟩
    obtain ⟨j, hj⟩ := List.getElem?_of_mem hmem
    by_cases hji : j = i
    · subst hji
      obtain rfl := Option.some.inj (hi.symm.trans hj)
      exact .inl hport
    · exact .inr ⟨j, peer, hji, hj, hport⟩
  · rintro (hport | ⟨j, b, -, hj, hport⟩)
    · exact ⟨a, List.mem_of_getElem? hi, hport⟩
    · exact ⟨b, List.mem_of_getElem? hj, hport⟩

/-- What is elsewhere does not depend on the connection. -/
theorem elsewhere_set (s : CoreServer) (i : ℕ) (a : Peer) (pool : PortPool) (servers : ℕ)
    (port : UInt16) :
    Elsewhere ⟨pool, servers, s.peers.set i a⟩ i port ↔ s.Elsewhere i port := by
  constructor
  · rintro ⟨j, b, hji, hj, hport⟩
    exact ⟨j, b, hji, (List.getElem?_set_ne hji.symm).symm.trans hj, hport⟩
  · rintro ⟨j, b, hji, hj, hport⟩
    exact ⟨j, b, hji, (List.getElem?_set_ne hji.symm).trans hj, hport⟩

/-- **A connection changes**, with the effect of a step on the ports. -/
theorem Accounted.replace (h : s.Accounted) {i : ℕ} {a a' : Peer} {pool : PortPool} (servers : ℕ)
    (hi : s.peers[i]? = some a) (huniform : ∀ session ∈ a'.session, session.Uniform)
    (heffect : PortEffect s.pool.inUse a.livePort pool.inUse a'.livePort) :
    Accounted ⟨pool, servers, s.peers.set i a'⟩ := by
  have hlt : i < s.peers.length := (List.getElem?_eq_some_iff.mp hi).1
  have hset : (s.peers.set i a')[i]? = some a' := List.getElem?_set_self hlt
  have hold : ∀ port, a.livePort = some port → ¬ s.Elsewhere i port := by
    rintro port hport ⟨j, b, hji, hj, hb⟩
    exact hji (h.distinct j i b a port hj hi hb hport)
  have hinUse : ∀ port, port ∈ s.pool.inUse ↔ a.livePort = some port ∨ s.Elsewhere i port :=
    fun port => (h.inUse port).trans (exists_livePort_iff hi port)
  -- the new port is nowhere else, and the ports in use are those of the connections
  have hnew : (∀ port, a'.livePort = some port → ¬ s.Elsewhere i port) ∧
      ∀ port, port ∈ pool.inUse ↔ a'.livePort = some port ∨ s.Elsewhere i port := by
    generalize pool.inUse = inUse' at heffect ⊢
    generalize a'.livePort = livePort' at heffect ⊢
    cases heffect with
    | keep => exact ⟨hold, hinUse⟩
    | take port hnone hfree =>
      refine ⟨?_, fun port' => ?_⟩
      · rintro port' hport' helsewhere
        obtain rfl := Option.some.inj hport'
        exact hfree ((hinUse _).mpr (.inr helsewhere))
      · rw [Finset.mem_insert, hinUse, hnone, Option.some_inj, eq_comm]
        simp
    | give =>
      refine ⟨by rintro port' ⟨⟩, fun port' => ?_⟩
      cases hport : a.livePort with
      | none =>
        rw [hport] at hinUse
        simpa using hinUse port'
      | some port =>
        have hgone := hold port hport
        rw [hport] at hinUse
        rw [Option.elim_some, Finset.mem_erase, hinUse, Option.some_inj]
        constructor
        · rintro ⟨hne, heq | helsewhere⟩
          · exact absurd heq.symm hne
          · exact .inr helsewhere
        · rintro (hnone | helsewhere)
          · cases hnone
          · refine ⟨?_, .inr helsewhere⟩
            rintro rfl
            exact hgone helsewhere
  refine ⟨fun peer hpeer => ?_, fun j k b c port hj hk hb hc => ?_, fun port => ?_⟩
  · rcases List.mem_or_eq_of_mem_set hpeer with hpeer | rfl
    · exact h.uniform peer hpeer
    · exact huniform
  · by_cases hji : j = i
    · subst hji
      by_contra hjk
      obtain rfl := Option.some.inj (hset.symm.trans hj)
      exact hnew.1 port hb ((elsewhere_set s j a' pool servers port).mp ⟨k, c, Ne.symm hjk, hk, hc⟩)
    · by_cases hki : k = i
      · subst hki
        obtain rfl := Option.some.inj (hset.symm.trans hk)
        exact absurd ((elsewhere_set s k a' pool servers port).mp ⟨j, b, hji, hj, hb⟩)
          (hnew.1 port hc)
      · exact h.distinct j k b c port ((List.getElem?_set_ne (Ne.symm hji)).symm.trans hj)
          ((List.getElem?_set_ne (Ne.symm hki)).symm.trans hk) hb hc
  · have hexists := @exists_livePort_iff ⟨pool, servers, s.peers.set i a'⟩ i a' hset port
    rw [elsewhere_set] at hexists
    exact (hnew.2 port).trans hexists.symm

/-- The session of a connection, with what it shares. -/
theorem Accounted.found (h : s.Accounted) {i : ℕ} {peer : Peer} {session : Session}
    (hi : s.peers[i]? = some peer) (hsession : peer.session = some session) :
    (s.found session).Uniform ∧ peer.livePort = (s.found session).session.livePort := by
  obtain ⟨a, ha⟩ := h.uniform peer (List.mem_of_getElem? hi) session hsession
  refine ⟨⟨a, ha⟩, ?_⟩
  rw [Peer.livePort, hsession]
  rfl

/-- **Every step** keeps the ports accounted for. -/
theorem Accounted.step {s' : CoreServer} {e : Event} (h : s.Accounted) (hguard : s.releasesOnce e)
    (hstep : s.step e = some s') : s'.Accounted := by
  cases e with
  | connect origin =>
    obtain rfl := Option.some.inj hstep
    have hnone : Peer.livePort ⟨origin, some (.new s.pool s.servers)⟩ = none := rfl
    have hold : ∀ {j : ℕ} {b : Peer} {port : UInt16},
        (s.peers ++ [⟨origin, some (.new s.pool s.servers)⟩])[j]? = some b →
        b.livePort = some port → s.peers[j]? = some b := by
      intro j b port hj hb
      rw [List.getElem?_append] at hj
      split_ifs at hj with hlt
      · exact hj
      · obtain rfl := List.mem_singleton.mp (List.mem_of_getElem? hj)
        cases hnone.symm.trans hb
    refine ⟨fun peer hpeer => ?_, fun i j a b port hi hj ha hb => ?_, fun port => ?_⟩
    · rcases List.mem_append.mp hpeer with hpeer | hpeer
      · exact h.uniform peer hpeer
      · rw [List.mem_singleton.mp hpeer]
        rintro session ⟨⟩
        exact Session.uniform_new _ _
    · exact h.distinct i j a b port (hold hi ha) (hold hj hb) ha hb
    · rw [h.inUse]
      constructor
      · rintro ⟨peer, hpeer, hport⟩
        exact ⟨peer, List.mem_append_left _ hpeer, hport⟩
      · rintro ⟨peer, hpeer, hport⟩
        obtain ⟨j, hj⟩ := List.getElem?_of_mem hpeer
        exact ⟨peer, List.mem_of_getElem? (hold hj hport), hport⟩
  | message i msg world =>
    obtain ⟨peer, hi, hstep⟩ := Option.bind_eq_some_iff.mp hstep
    obtain ⟨session, hsession, hstep⟩ := Option.bind_eq_some_iff.mp hstep
    obtain rfl := Option.some.inj hstep
    obtain ⟨huniform, hlive⟩ := h.found hi hsession
    refine h.replace _ hi ?_ ?_
    · rintro session' ⟨⟩
      exact huniform.step (e := .message msg world) rfl
    · rw [hlive]
      exact Session.processMessage_ports huniform peer.origin msg world
  | disconnect i =>
    obtain ⟨peer, hi, hstep⟩ := Option.bind_eq_some_iff.mp hstep
    obtain ⟨session, hsession, hstep⟩ := Option.bind_eq_some_iff.mp hstep
    obtain rfl := Option.some.inj hstep
    obtain ⟨huniform, hlive⟩ := h.found hi hsession
    refine h.replace _ hi (by rintro session' ⟨⟩) ?_
    rw [hlive]
    exact Session.teardownVideo_ports huniform
  | bindFailed port =>
    obtain rfl := Option.some.inj hstep
    -- the port is that of no session, so it is not in use
    have hfree : port ∉ s.pool.inUse := by
      rw [h.inUse]
      rintro ⟨peer, hpeer, hport⟩
      exact hguard peer hpeer hport
    have herase : (s.pool.release port).inUse = s.pool.inUse := Finset.erase_eq_of_notMem hfree
    refine ⟨h.uniform, h.distinct, fun port' => ?_⟩
    rw [← h.inUse, ← herase]

/-- **The ports in every run**, as long as no listener task releases the port of a session: the ports
in use are those of the sessions, and every session has one of its own. When all connections have
ended, no port is in use. The port that a page is told behind a message is that of its own session,
and of no other. -/
theorem run_accounted {pool : PortPool} (hpool : pool.inUse = ∅) {es : List Event}
    (h : Run step releasesOnce (new pool) es s) :
    s.Accounted ∧ ((∀ peer ∈ s.peers, peer.session = none) → s.pool.inUse = ∅) ∧
      ∀ i peer session, s.peers[i]? = some peer → peer.session = some session →
        ∀ msg world, ∀ text ∈ ((s.found session).processMessage peer.origin msg world).2.2,
          ∀ entries, read text = some (.object entries) →
            lookup "msgid".toList entries = some (.nat 50009) →
            ∃ port s', s.step (.message i msg world) = some s' ∧
              lookup "livePort".toList entries = some (.nat port.toNat) ∧
              ∀ j other, s'.peers[j]? = some other → (other.livePort = some port ↔ j = i) := by
  have haccounted : s.Accounted :=
    h.invariant (fun _ _ _ hs hguard hstep => hs.step hguard hstep) (accounted_new hpool)
  refine ⟨haccounted, fun hended => ?_, ?_⟩
  · refine Finset.eq_empty_of_forall_notMem fun port hport => ?_
    obtain ⟨peer, hpeer, hlive⟩ := (haccounted.inUse port).mp hport
    rw [Peer.livePort, hended peer hpeer] at hlive
    cases hlive
  · intro i peer session hi hsession msg world text htext entries hread hid
    obtain ⟨port, hlive, hport⟩ := livePort_told htext hread hid
    have hstep : s.step (.message i msg world) =
        some ⟨((s.found session).processMessage peer.origin msg world).1.pool,
          ((s.found session).processMessage peer.origin msg world).1.servers,
          s.peers.set i ⟨peer.origin,
            some ((s.found session).processMessage peer.origin msg world).1⟩⟩ := by
      simp only [step, hi, hsession, Option.bind_eq_bind, Option.bind_some, Option.pure_def]
    refine ⟨port, _, hstep, hport, fun j other hj => ⟨fun hother => ?_, ?_⟩⟩
    · have hlt : i < s.peers.length := (List.getElem?_eq_some_iff.mp hi).1
      exact (haccounted.step (e := .message i msg world) trivial hstep).distinct j i other _ port hj
        (List.getElem?_set_self hlt) hother hlive
    · rintro rfl
      have hlt : j < s.peers.length := (List.getElem?_eq_some_iff.mp hi).1
      obtain rfl := Option.some.inj ((List.getElem?_set_self hlt).symm.trans hj)
      exact hlive

/-- Two pages log in, and the first one leaves. -/
def twoPages : List Event :=
  [.connect Session.cameraPage, .connect Session.cameraPage,
    .message 0 Session.loginMessage Session.accepting,
    .message 1 Session.loginMessage Session.accepting, .disconnect 0]

/-- The port of the second page is in use, and no other. -/
theorem run_accounted_twoPages :
    ∃ s, Run step releasesOnce (new (.new 11000 2)) twoPages s ∧
      ∀ port, port ∈ s.pool.inUse ↔ port = 11001 := by
  have hexec : (exec step releasesOnce (new (.new 11000 2)) twoPages).map
      (fun s => s.peers.map Peer.livePort) = some [none, some 11001] := by
    decide +kernel
  obtain ⟨s, hrun, hports⟩ := Run.of_exec_map hexec
  refine ⟨s, hrun, fun port => ?_⟩
  rw [(run_accounted rfl hrun).1.inUse]
  have hmap : (∃ peer ∈ s.peers, peer.livePort = some port) ↔
      some port ∈ s.peers.map Peer.livePort := List.mem_map.symm
  rw [hmap, hports]
  simp

end CoreServer

end Dispatch

end Fosipcore
