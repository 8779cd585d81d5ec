import Fosipcore.Library.Trace
import Fosipcore.Library.Transducer
import Fosipcore.Library.Utf8

/-!
# The message loop of a WebSocket connection

A server reads the messages of a connection one at a time. It hands their texts to a transducer, and
sends the texts that come out of it as binary messages, before it reads on. A ping is answered with a
pong. The loop ends when the peer closes the connection, when it can not be read any more, or when a
reply can not be sent.

## Main definitions

* `Message`, `Message.content`: the messages of a connection, and their texts
* `serve`: the loop
* `texts`: the texts that a connection brings before it ends
* `Accepts`: all replies to the text of a read can be sent
* `ServedAll`, `CutOff`: the loop has come to the end of the connection, or to the first reply that
  could not be sent

## Main results

* `serve_served`: the loop refines the run of the transducer over the texts
* `serve_all`: without a failing send, all texts are handled and all replies are sent
* `serve_append`: nothing is done behind the end
* `serve_invariant`: an invariant of the transducer holds behind the loop
-/

namespace WebSocket

open Text Trace Transducer

/-- A message of a connection. -/
inductive Message where
  | text (text : Str)
  | binary (bytes : List UInt8)
  | close
  | ping (payload : List UInt8)
  | pong (payload : List UInt8)
  | frame
  deriving DecidableEq

/-- The text of a message; the bytes of a binary message have to be one. -/
def Message.content : Message → Option Str
  | .text t => some t
  | .binary bytes => decodeUtf8 bytes
  | .close | .ping _ | .pong _ | .frame => none

/-- A text as a binary message. -/
def reply (text : Str) : Message := .binary (encodeUtf8 text)

@[simp] theorem content_reply (text : Str) : (reply text).content = some text :=
  decodeUtf8_encodeUtf8 text

/-- What a read of the connection brings. -/
inductive Incoming where
  | message (message : Message)
  | error
  deriving DecidableEq

variable {σ ω : Type*}

/-- A read of the connection, with what the world answers to its text, and the number of messages
that can be sent before the next read. -/
structure Event (ω : Type*) where
  incoming : Incoming
  world : ω
  accepts : ℕ

namespace Event

/-- The connection ends with a read. -/
def ends (e : Event ω) : Bool := e.incoming == .error || e.incoming == .message .close

/-- The text of a read. -/
def content (e : Event ω) : Option Str :=
  match e.incoming with
  | .message message => message.content
  | .error => none

/-- The pong for a ping, if it can be sent: nobody looks. -/
def pongs (e : Event ω) : List Message :=
  match e.incoming with
  | .message (.ping payload) => [Message.pong payload].take e.accepts
  | _ => []

end Event

/-- What a loop has done: the state behind it, what it has sent, and whether it ended without an
error. -/
structure Outcome (σ : Type*) where
  state : σ
  sent : List Message
  ok : Bool

/-- Put messages in front of what was sent. -/
def Outcome.after (messages : List Message) (o : Outcome σ) : Outcome σ :=
  { o with sent := messages ++ o.sent }

/-- The loop. -/
def serve (handle : σ → Str × ω → List Str × σ) : σ → List (Event ω) → Outcome σ
  | s, [] => ⟨s, [], true⟩
  | s, e :: es =>
    match e.incoming with
    | .error => ⟨s, [], false⟩
    | .message .close => ⟨s, [], true⟩
    | .message message =>
      match message.content with
      | none => (serve handle s es).after e.pongs
      | some text =>
        let (replies, s) := handle s (text, e.world)
        if replies.length ≤ e.accepts then (serve handle s es).after (replies.map reply)
        -- the reply that can not be sent ends the loop
        else ⟨s, (replies.take e.accepts).map reply, false⟩

/-! ## One read -/

variable {handle : σ → Str × ω → List Str × σ} {s : σ} {e : Event ω} {es : List (Event ω)}

theorem serve_error (h : e.incoming = .error) : serve handle s (e :: es) = ⟨s, [], false⟩ := by
  rw [serve, h]

theorem serve_close (h : e.incoming = .message .close) :
    serve handle s (e :: es) = ⟨s, [], true⟩ := by
  rw [serve, h]

theorem serve_ends (h : e.ends = true) :
    serve handle s (e :: es) = ⟨s, [], e.incoming == .message .close⟩ := by
  rcases Bool.or_eq_true_iff.mp h with h | h
  · have herror := eq_of_beq h
    rw [serve_error herror, herror]
    rfl
  · have hclose := eq_of_beq h
    rw [serve_close hclose, hclose]
    rfl

theorem serve_skip (hends : e.ends = false) (h : e.content = none) :
    serve handle s (e :: es) = (serve handle s es).after e.pongs := by
  obtain ⟨incoming, world, accepts⟩ := e
  cases incoming with
  | error => cases hends
  | message message =>
    cases message with
    | close => cases hends
    | text text => cases h
    | binary bytes =>
      have hnone : decodeUtf8 bytes = none := h
      simp only [serve, Message.content, hnone]
    | ping | pong | frame => rfl

theorem serve_text {text : Str} (h : e.content = some text) :
    serve handle s (e :: es) =
      if (handle s (text, e.world)).1.length ≤ e.accepts then
        (serve handle (handle s (text, e.world)).2 es).after
          ((handle s (text, e.world)).1.map reply)
      else ⟨(handle s (text, e.world)).2,
        ((handle s (text, e.world)).1.take e.accepts).map reply, false⟩ := by
  obtain ⟨incoming, world, accepts⟩ := e
  cases incoming with
  | error => cases h
  | message message =>
    cases message with
    | text text' =>
      obtain rfl := Option.some.inj h
      rfl
    | binary bytes =>
      have hsome : decodeUtf8 bytes = some text := h
      simp only [serve, Message.content, hsome]
    | close | ping | pong | frame => cases h

/-- **Nothing is done behind the end** of a connection, whatever comes. -/
theorem serve_append (h : ∃ e ∈ es, e.ends = true) (more : List (Event ω)) :
    serve handle s (es ++ more) = serve handle s es := by
  induction es generalizing s with
  | nil =>
    obtain ⟨e, he, -⟩ := h
    cases he
  | cons e es ih =>
    rw [List.cons_append]
    cases hends : e.ends with
    | true => rw [serve_ends hends, serve_ends hends]
    | false =>
      have hrest : ∃ e ∈ es, e.ends = true := by
        obtain ⟨e', he', hends'⟩ := h
        rcases List.mem_cons.mp he' with rfl | he'
        · rw [hends] at hends'
          cases hends'
        · exact ⟨e', he', hends'⟩
      cases hcontent : e.content with
      | none => rw [serve_skip hends hcontent, serve_skip hends hcontent, ih hrest]
      | some text => rw [serve_text hcontent, serve_text hcontent, ih hrest]

/-- **An invariant of the transducer** holds behind the loop, however it ends. -/
theorem serve_invariant {I : σ → Prop} (hstep : ∀ s input, I s → I (handle s input).2) (hs : I s) :
    I (serve handle s es).state := by
  induction es generalizing s with
  | nil => exact hs
  | cons e es ih =>
    cases hends : e.ends with
    | true =>
      rw [serve_ends hends]
      exact hs
    | false =>
      cases hcontent : e.content with
      | none =>
        rw [serve_skip hends hcontent]
        exact ih hs
      | some text =>
        rw [serve_text hcontent]
        split_ifs
        · exact ih (hstep s _ hs)
        · exact hstep s _ hs

/-! ## The texts of a connection -/

/-- The texts that a connection brings before it ends, with what the world answers to them. -/
def texts : List (Event ω) → List (Str × ω)
  | [] => []
  | e :: es =>
    if e.ends then []
    else (e.content.map fun text => (text, e.world)).toList ++ texts es

/-- The replies among the messages that were sent. -/
def replies (sent : List Message) : List Str := sent.filterMap Message.content

theorem replies_append (a b : List Message) : replies (a ++ b) = replies a ++ replies b :=
  List.filterMap_append

@[simp] theorem replies_map_reply (texts : List Str) : replies (texts.map reply) = texts := by
  induction texts with
  | nil => rfl
  | cons text texts ih => rw [List.map_cons, replies, List.filterMap_cons_some (content_reply text),
      ← replies, ih]

@[simp] theorem replies_pongs (e : Event ω) : replies e.pongs = [] := by
  unfold Event.pongs
  split
  · rename_i payload _
    cases e.accepts with
    | zero => rfl
    | succ n =>
      rw [List.take_succ_cons, List.take_nil]
      rfl
  · rfl

/-- The reads in front of the end of the connection. -/
def live (es : List (Event ω)) : List (Event ω) := es.takeWhile fun e => !e.ends

theorem texts_cons (hends : e.ends = false) (past : List (Event ω)) :
    texts (e :: past) = (e.content.map fun text => (text, e.world)).toList ++ texts past := by
  rw [texts, hends, if_neg Bool.false_ne_true]

/-- What comes behind reads without an end. -/
theorem texts_append {before : List (Event ω)} (h : ∀ b ∈ before, b.ends = false)
    (more : List (Event ω)) : texts (before ++ more) = texts before ++ texts more := by
  induction before with
  | nil => rfl
  | cons b before ih =>
    obtain ⟨hb, hbefore⟩ := List.forall_mem_cons.mp h
    rw [List.cons_append, texts_cons hb, texts_cons hb, ih hbefore, List.append_assoc]

/-- All replies to the text of a read can be sent, behind the texts of the reads before it. -/
def Accepts (handle : σ → Str × ω → List Str × σ) (s : σ) (before : List (Event ω)) (e : Event ω) :
    Prop :=
  ∀ text ∈ e.content, (handle (run handle s (texts before)).2 (text, e.world)).1.length ≤ e.accepts

/-- The loop has come to the end of the connection: it has sent all replies to all texts. -/
structure ServedAll (handle : σ → Str × ω → List Str × σ) (s : σ) (es : List (Event ω))
    (o : Outcome σ) : Prop where
  accepted : Checked (Accepts handle s) (live es)
  state_eq : o.state = (run handle s (texts es)).2
  replies_eq : replies o.sent = (run handle s (texts es)).1

/-- **The loop was cut off** by a reply that could not be sent: it has sent all replies to the texts
before this one, and those to this one that could be sent. -/
structure CutOff (handle : σ → Str × ω → List Str × σ) (s : σ) (before : List (Event ω))
    (e : Event ω) (text : Str) (o : Outcome σ) : Prop where
  running : ∀ b ∈ before, b.ends = false
  accepted : Checked (Accepts handle s) before
  content : e.content = some text
  refused : e.accepts < (handle (run handle s (texts before)).2 (text, e.world)).1.length
  state_eq : o.state = (handle (run handle s (texts before)).2 (text, e.world)).2
  replies_eq : replies o.sent = (run handle s (texts before)).1 ++
    (handle (run handle s (texts before)).2 (text, e.world)).1.take e.accepts
  failed : o.ok = false

section Cons

variable {text : Str} {o : Outcome σ} {before : List (Event ω)} {e' : Event ω} {text' : Str}

/-- A read without a text does not matter. -/
theorem run_texts_skip (hends : e.ends = false) (hcontent : e.content = none)
    (past : List (Event ω)) : run handle s (texts (e :: past)) = run handle s (texts past) := by
  rw [texts_cons hends, hcontent]
  rfl

/-- A text is handled first. -/
theorem run_texts_text (hends : e.ends = false) (hcontent : e.content = some text)
    (past : List (Event ω)) :
    run handle s (texts (e :: past)) =
      ((handle s (text, e.world)).1 ++ (run handle (handle s (text, e.world)).2 (texts past)).1,
        (run handle (handle s (text, e.world)).2 (texts past)).2) := by
  rw [texts_cons hends, hcontent]
  rfl

/-- The replies to later reads, behind a first one without a text. -/
theorem checked_skip (hends : e.ends = false) (hcontent : e.content = none)
    (h : Checked (Accepts handle s) es) : Checked (Accepts handle s) (e :: es) := by
  refine checked_cons.mpr ⟨fun text htext => ?_, fun past b rest hes text htext => ?_⟩
  · rw [hcontent] at htext
    cases htext
  · rw [run_texts_skip hends hcontent]
    exact h past b rest hes text htext

/-- The replies to later reads, behind a first text whose replies can be sent. -/
theorem checked_text (hends : e.ends = false) (hcontent : e.content = some text)
    (haccepts : (handle s (text, e.world)).1.length ≤ e.accepts)
    (h : Checked (Accepts handle (handle s (text, e.world)).2) es) :
    Checked (Accepts handle s) (e :: es) := by
  refine checked_cons.mpr ⟨fun text' htext => ?_, fun past b rest hes text' htext => ?_⟩
  · obtain rfl := Option.some.inj (hcontent.symm.trans htext)
    exact haccepts
  · rw [run_texts_text hends hcontent]
    exact h past b rest hes text' htext

theorem replies_after (messages : List Message) (o : Outcome σ) :
    replies (o.after messages).sent = replies messages ++ replies o.sent := by
  rw [Outcome.after, replies_append]

theorem live_cons (hends : e.ends = false) : live (e :: es) = e :: live es := by
  rw [live, List.takeWhile_cons, hends]
  rfl

theorem ServedAll.cons_skip (h : ServedAll handle s es o) (hends : e.ends = false)
    (hcontent : e.content = none) : ServedAll handle s (e :: es) (o.after e.pongs) where
  accepted := by
    rw [live_cons hends]
    exact checked_skip hends hcontent h.accepted
  state_eq := by
    rw [run_texts_skip hends hcontent]
    exact h.state_eq
  replies_eq := by
    rw [run_texts_skip hends hcontent, replies_after, replies_pongs, List.nil_append, h.replies_eq]

theorem ServedAll.cons_text (h : ServedAll handle (handle s (text, e.world)).2 es o)
    (hends : e.ends = false) (hcontent : e.content = some text)
    (haccepts : (handle s (text, e.world)).1.length ≤ e.accepts) :
    ServedAll handle s (e :: es) (o.after ((handle s (text, e.world)).1.map reply)) where
  accepted := by
    rw [live_cons hends]
    exact checked_text hends hcontent haccepts h.accepted
  state_eq := by
    rw [run_texts_text hends hcontent]
    exact h.state_eq
  replies_eq := by
    rw [run_texts_text hends hcontent, replies_after, replies_map_reply, h.replies_eq]

theorem CutOff.cons_skip (h : CutOff handle s before e' text' o) (hends : e.ends = false)
    (hcontent : e.content = none) : CutOff handle s (e :: before) e' text' (o.after e.pongs) where
  running := List.forall_mem_cons.mpr ⟨hends, h.running⟩
  accepted := checked_skip hends hcontent h.accepted
  content := h.content
  refused := by
    rw [run_texts_skip hends hcontent]
    exact h.refused
  state_eq := by
    rw [run_texts_skip hends hcontent]
    exact h.state_eq
  replies_eq := by
    rw [run_texts_skip hends hcontent, replies_after, replies_pongs, List.nil_append, h.replies_eq]
  failed := h.failed

theorem CutOff.cons_text (h : CutOff handle (handle s (text, e.world)).2 before e' text' o)
    (hends : e.ends = false) (hcontent : e.content = some text)
    (haccepts : (handle s (text, e.world)).1.length ≤ e.accepts) :
    CutOff handle s (e :: before) e' text' (o.after ((handle s (text, e.world)).1.map reply)) where
  running := List.forall_mem_cons.mpr ⟨hends, h.running⟩
  accepted := checked_text hends hcontent haccepts h.accepted
  content := h.content
  refused := by
    rw [run_texts_text hends hcontent]
    exact h.refused
  state_eq := by
    rw [run_texts_text hends hcontent]
    exact h.state_eq
  replies_eq := by
    rw [run_texts_text hends hcontent, replies_after, replies_map_reply, h.replies_eq,
      List.append_assoc]
  failed := h.failed

end Cons

/-- **The loop refines the run of the transducer** over the texts of the connection, up to the first
reply that can not be sent. -/
theorem serve_served (handle : σ → Str × ω → List Str × σ) (s : σ) (es : List (Event ω)) :
    ServedAll handle s es (serve handle s es) ∨
      ∃ before e after text, es = before ++ e :: after ∧
        CutOff handle s before e text (serve handle s es) := by
  induction es generalizing s with
  | nil => exact .inl ⟨.nil, rfl, rfl⟩
  | cons e es ih =>
    cases hends : e.ends with
    | true =>
      have htexts : texts (e :: es) = [] := by rw [texts, if_pos hends]
      have hlive : live (e :: es) = [] := by
        rw [live, List.takeWhile_cons, hends]
        rfl
      rw [serve_ends hends]
      exact .inl ⟨hlive ▸ .nil, by rw [htexts]; rfl, by rw [htexts]; rfl⟩
    | false =>
      cases hcontent : e.content with
      | none =>
        rw [serve_skip hends hcontent]
        rcases ih s with h | ⟨before, e', after, text', rfl, h⟩
        · exact .inl (h.cons_skip hends hcontent)
        · exact .inr ⟨e :: before, e', after, text', rfl, h.cons_skip hends hcontent⟩
      | some text =>
        rw [serve_text hcontent]
        split_ifs with haccepts
        · rcases ih (handle s (text, e.world)).2 with h | ⟨before, e', after, text', rfl, h⟩
          · exact .inl (h.cons_text hends hcontent haccepts)
          · exact .inr ⟨e :: before, e', after, text', rfl, h.cons_text hends hcontent haccepts⟩
        · -- a reply to this text is the first one that is not sent
          refine .inr ⟨[], e, es, text, rfl, by simp, .nil, hcontent, Nat.lt_of_not_le haccepts, rfl,
            ?_, rfl⟩
          rw [replies_map_reply]
          rfl

/-- **Without a failing send** all texts are handled and all replies are sent, however the connection
ends. -/
theorem serve_all {bound : ℕ} (hbound : ∀ s input, (handle s input).1.length ≤ bound)
    (h : (serve handle s es).ok = true ∨ ∀ e ∈ es, bound ≤ e.accepts) :
    ServedAll handle s es (serve handle s es) := by
  rcases serve_served handle s es with hall | ⟨before, e, after, text, rfl, hcut⟩
  · exact hall
  · rcases h with hok | haccepts
    · cases hok.symm.trans hcut.failed
    · have hlt : e.accepts < bound := hcut.refused.trans_le (hbound _ _)
      exact absurd (haccepts e (by simp)) (Nat.not_le.mpr hlt)

/-- A transducer that leaves some inputs alone runs over the others. -/
theorem run_filterMap {ι κ o : Type*} {step : σ → ι → List o × σ} {step' : σ → κ → List o × σ}
    {f : ι → Option κ} (hsome : ∀ s i k, f i = some k → step s i = step' s k)
    (hnone : ∀ s i, f i = none → step s i = ([], s)) (s : σ) (is : List ι) :
    run step s is = run step' s (is.filterMap f) := by
  induction is generalizing s with
  | nil => rfl
  | cons i is ih =>
    rw [run_cons]
    cases hf : f i with
    | none =>
      rw [List.filterMap_cons_none hf, hnone s i hf, ← ih]
      rfl
    | some k => rw [List.filterMap_cons_some hf, run_cons, hsome s i k hf, ih]

end WebSocket
