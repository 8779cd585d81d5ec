import Fosipcore.Core.Inbound
import Fosipcore.Library.WebSocket

/-!
# The service manager

A browser that has loaded the page of a camera asks the service manager for the port of the core
server. The manager answers every port request of a connection with the same port, and nothing else.
It keeps no state.

## Main definitions

* `portResponse`: the answer to a port request
* `handleConnection`: a connection

## Main results

* `read_portResponse`: what the browser reads
* `handleConnection_replies`: every request is answered
-/

namespace Fosipcore

open Text Json Transducer WebSocket

namespace ServiceManager

abbrev cmdRequestPort : ℕ := 20000

abbrev responseRequestPort : ℕ := 50000

/-- The answer to a port request: the browser reads the port at the top level. -/
def portResponse (serviceVersion : Str) (corePort : UInt16) : Json :=
  .object (insertAll [("version".toList, .nat 1), ("msgid".toList, .nat responseRequestPort),
    ("dstPort".toList, .nat corePort.toNat), ("seviceVer".toList, .string serviceVersion)] [])

section Connection

variable (parse : Str → Option Json) (serviceVersion : Str) (corePort : UInt16)

/-- A text is a port request. -/
def isPortRequest (text : Str) : Bool :=
  (WsMessage.fromStr parse text).any fun msg => msg.msgId == cmdRequestPort

/-- Handle a text: one that is no message is skipped, and other messages are ignored. -/
def handleText (_ : Unit) (input : Str × Unit) : List Str × Unit :=
  match WsMessage.fromStr parse input.1 with
  | none => ([], ())
  | some msg =>
    if msg.msgId = cmdRequestPort then ([(portResponse serviceVersion corePort).print], ())
    else ([], ())

/-- A connection behind its handshake. -/
def handleConnection (es : List (Event Unit)) : Outcome Unit :=
  serve (handleText parse serviceVersion corePort) () es

end Connection

variable {parse : Str → Option Json} {serviceVersion : Str} {corePort : UInt16}

theorem handleText_eq (input : Str × Unit) :
    handleText parse serviceVersion corePort () input =
      (if isPortRequest parse input.1 then [(portResponse serviceVersion corePort).print] else [],
        ()) := by
  rw [handleText, isPortRequest]
  cases WsMessage.fromStr parse input.1 with
  | none => rfl
  | some msg =>
    dsimp only [Option.any_some]
    by_cases hid : msg.msgId = cmdRequestPort
    · rw [if_pos hid, if_pos (beq_iff_eq.mpr hid)]
    · rw [if_neg hid, if_neg (mt beq_iff_eq.mp hid)]

/-- The replies to some texts: one for each request. -/
theorem run_handleText (inputs : List (Str × Unit)) :
    (run (handleText parse serviceVersion corePort) () inputs).1 =
      List.replicate (inputs.countP fun input => isPortRequest parse input.1)
        (portResponse serviceVersion corePort).print := by
  induction inputs with
  | nil => rfl
  | cons input inputs ih =>
    rw [run_cons, ih, handleText_eq, List.countP_cons]
    split_ifs
    · rw [List.replicate_succ, List.singleton_append]
    · rw [List.nil_append, Nat.add_zero]

/-- **The browser reads the port of the core server** in the answer. -/
theorem read_portResponse (serviceVersion : Str) (corePort : UInt16) :
    ∃ entries, read (portResponse serviceVersion corePort).print = some (.object entries) ∧
      lookup "msgid".toList entries = some (.nat responseRequestPort) ∧
      lookup "dstPort".toList entries = some (.nat corePort.toNat) ∧
      lookup "seviceVer".toList entries = some (.string serviceVersion) ∧
      lookup "version".toList entries = some (.nat 1) := by
  refine ⟨_, read_print ?_, ?_, ?_, ?_, ?_⟩
  · apply Dispatch.integral_insertAll
    · intro field hfield
      simp only [List.mem_cons, List.not_mem_nil, or_false] at hfield
      rcases hfield with rfl | rfl | rfl | rfl <;> rfl
    · intro entry hentry
      cases hentry
  all_goals rfl

/-- **Every port request is answered**, in whatever messages it comes and whatever comes between: the
replies of a connection are as many equal answers as there were requests before its end, or fewer if
one could not be sent. Nothing that comes behind the end matters. -/
theorem handleConnection_replies (parse : Str → Option Json) (serviceVersion : Str)
    (corePort : UInt16) (es : List (Event Unit)) :
    ∃ n answer, replies (handleConnection parse serviceVersion corePort es).sent =
        List.replicate n answer ∧
      n ≤ ((texts es).countP fun input => isPortRequest parse input.1) ∧
      ((handleConnection parse serviceVersion corePort es).ok = true ∨
          (∀ e ∈ es, 1 ≤ e.accepts) →
        n = (texts es).countP fun input => isPortRequest parse input.1) ∧
      (∃ entries, read answer = some (.object entries) ∧
        lookup "msgid".toList entries = some (.nat responseRequestPort) ∧
        lookup "dstPort".toList entries = some (.nat corePort.toNat) ∧
        lookup "seviceVer".toList entries = some (.string serviceVersion) ∧
        lookup "version".toList entries = some (.nat 1)) ∧
      ((∃ e ∈ es, e.ends = true) → ∀ more,
        handleConnection parse serviceVersion corePort (es ++ more) =
          handleConnection parse serviceVersion corePort es) := by
  have hbound : ∀ s input, (handleText parse serviceVersion corePort s input).1.length ≤ 1 := by
    intro s input
    rw [handleText_eq]
    split_ifs
    · exact Nat.le_refl 1
    · exact Nat.zero_le 1
  have hserved : ∃ n, replies (serve (handleText parse serviceVersion corePort) () es).sent =
        List.replicate n (portResponse serviceVersion corePort).print ∧
      n ≤ ((texts es).countP fun input => isPortRequest parse input.1) ∧
      (ServedAll (handleText parse serviceVersion corePort) () es
          (serve (handleText parse serviceVersion corePort) () es) →
        n = (texts es).countP fun input => isPortRequest parse input.1) := by
    rcases serve_served (handleText parse serviceVersion corePort) () es with
      h | ⟨before, e, after, text, rfl, h⟩
    · exact ⟨_, h.replies_eq.trans (run_handleText _), le_rfl, fun _ => rfl⟩
    · -- the one answer to this text could not be sent
      have hzero : e.accepts = 0 := Nat.lt_one_iff.mp (h.refused.trans_le (hbound _ _))
      have hsent := h.replies_eq
      rw [run_handleText, hzero, List.take_zero, List.append_nil] at hsent
      refine ⟨_, hsent, ?_, fun hall => ?_⟩
      · rw [texts_append h.running, List.countP_append]
        exact Nat.le_add_right _ _
      · have hreplies := congrArg List.length (hsent.symm.trans hall.replies_eq)
        rwa [run_handleText, List.length_replicate, List.length_replicate] at hreplies
  obtain ⟨n, hsent, hle, hall⟩ := hserved
  exact ⟨n, _, hsent, hle, fun h => hall (serve_all hbound h),
    read_portResponse serviceVersion corePort, fun hends more => serve_append hends more⟩

end ServiceManager

end Fosipcore
