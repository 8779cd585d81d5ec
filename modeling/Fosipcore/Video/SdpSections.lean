import Fosipcore.Video.RtspClient
import Mathlib.Data.List.ModifyLast

/-!
# The sections of a session description

A session description is a list of lines: those of the session, and then the media sections, each
of which begins with an `m=` line. The parser keeps the sections of video and audio, and gives a
control attribute to the last section that it kept. A section of another kind is not kept, so that
its control attribute goes to a section before it.

## Main definitions

* `SdpSection`, `SdpDocument`: a description in sections
* `SdpSection.media?`: what a section says of itself
* `SdpDocument.KeepsControls`: no section that is kept gets another control from behind it

## Main results

* `SdpDocument.lines_ofLines`: every text is a description in sections
* `SdpDocument.foldl_sdpLine`: the parser over a description
* `SdpDocument.parseSdpMedia_iff`: the descriptions whose attributes stay in their section
-/

namespace Fosipcore

open Text

/-! ## Descriptions -/

/-- The text behind `m=`, for a line that begins a section. -/
def mediaText (line : Str) : Option Str := stripPrefix "m=".toList (trim line)

/-- The value of a control attribute that names a track. -/
def controlText (line : Str) : Option Str :=
  (stripPrefix "a=control:".toList (trim line)).bind fun value =>
    if trim value = [] ∨ trim value = ['*'] then none else some (trim value)

/-- A media section: the line that begins it, and the lines up to the next section. -/
structure SdpSection where
  line : Str
  header : Str
  body : List Str
  begins : mediaText line = some header
  within : ∀ l ∈ body, mediaText l = none

namespace SdpSection

/-- The kind of a section, where it is known. -/
def kind (sec : SdpSection) : Option MediaKind :=
  if (splitWhitespace sec.header).head? = some "video".toList then some .video
  else if (splitWhitespace sec.header).head? = some "audio".toList then some .audio
  else none

/-- The formats of a section stand behind its name, its port and its protocol. -/
def formats (sec : SdpSection) : List Str := (splitWhitespace sec.header).drop 3

/-- The first format of a section, or 0 where it is not a byte. -/
def payloadType (sec : SdpSection) : UInt8 :=
  ((sec.formats.head?.bind (parseUnsigned 255)).map UInt8.ofNat).getD 0

/-- The control attribute of a section: the last one that names a track. -/
def control (sec : SdpSection) : Option Str := (sec.body.filterMap controlText).getLast?

/-- What a section says of itself. -/
def media? (sec : SdpSection) : Option SdpMedia :=
  sec.kind.map fun kind => ⟨kind, sec.payloadType, sec.control⟩

/-- The lines of a section. -/
def lines (sec : SdpSection) : List Str := sec.line :: sec.body

end SdpSection

/-- The lines of the session, and the sections. -/
structure SdpDocument where
  session : List Str
  sections : List SdpSection
  before : ∀ line ∈ session, mediaText line = none

namespace SdpDocument

/-- The lines of a description. -/
def lines (document : SdpDocument) : List Str :=
  document.session ++ document.sections.flatMap SdpSection.lines

/-- What a description says, section by section. -/
def media (document : SdpDocument) : List SdpMedia :=
  document.sections.filterMap SdpSection.media?

/-- A description with one more line at its front. -/
def addLine (line : Str) (document : SdpDocument) : SdpDocument :=
  match h : mediaText line with
  | some header =>
    { session := []
      sections := ⟨line, header, document.session, h, document.before⟩ :: document.sections
      before := by simp }
  | none =>
    { document with
      session := line :: document.session
      before := by simpa using ⟨h, document.before⟩ }

theorem lines_addLine (line : Str) (document : SdpDocument) :
    (document.addLine line).lines = line :: document.lines := by
  rw [addLine]
  split
  · simp [lines, SdpSection.lines]
  · simp [lines]

/-- The description that has the given lines. -/
def ofLines : List Str → SdpDocument
  | [] => ⟨[], [], by simp⟩
  | line :: rest => (ofLines rest).addLine line

/-- **Every text** is a description in sections. -/
theorem lines_ofLines (text : List Str) : (ofLines text).lines = text := by
  induction text with
  | nil => rfl
  | cons line rest ih => rw [ofLines, lines_addLine, ih]

end SdpDocument

/-! ## The parser -/

/-- The last section gets its control attribute, if there is one. -/
def setControl (control : Option Str) (media : List SdpMedia) : List SdpMedia :=
  control.elim media fun c => media.modifyLast fun last => { last with control := some c }

theorem setControl_nil (control : Option Str) : setControl control [] = [] := by
  cases control with
  | none => rfl
  | some c => rfl

theorem setControl_concat (control : Option Str) (media : List SdpMedia) (last : SdpMedia) :
    setControl control (media ++ [last]) =
      media ++ [{ last with control := control.or last.control }] := by
  cases control with
  | none => rfl
  | some c => exact List.modifyLast_concat _ _ _

theorem setControl_setControl (first second : Option Str) (media : List SdpMedia) :
    setControl second (setControl first media) = setControl (second.or first) media := by
  rcases List.eq_nil_or_concat media with rfl | ⟨media, last, rfl⟩
  · simp only [setControl_nil]
  · rw [List.concat_eq_append]
    simp only [setControl_concat, Option.or_assoc]

/-- A line that begins no section sets the control attribute, or does nothing. -/
theorem sdpLine_attribute {line : Str} (h : mediaText line = none) (media : List SdpMedia) :
    sdpLine media line = setControl (controlText line) media := by
  rw [sdpLine, controlText, show stripPrefix "m=".toList (trim line) = none from h]
  cases stripPrefix "a=control:".toList (trim line) with
  | none => rfl
  | some value =>
    by_cases hc : trim value = [] ∨ trim value = ['*']
    · simp [hc, setControl]
    · simp [hc, setControl]

/-- A line that begins a section adds it, if its kind is known. -/
theorem sdpLine_line (sec : SdpSection) (media : List SdpMedia) :
    sdpLine media sec.line =
      media ++ (sec.kind.map fun kind => ⟨kind, sec.payloadType, none⟩ : Option SdpMedia).toList := by
  have hfields : (splitWhitespace sec.header)[3]? = sec.formats.head? := by
    rw [SdpSection.formats, List.head?_drop]
  rw [sdpLine, show stripPrefix "m=".toList (trim sec.line) = some sec.header from sec.begins]
  simp only [parseMediaLine, SdpSection.kind, SdpSection.payloadType, hfields]
  split <;> try split
  all_goals rfl

/-- The lines of no section: the last control attribute among them counts. -/
theorem foldl_body {body : List Str} (h : ∀ line ∈ body, mediaText line = none)
    (media : List SdpMedia) :
    body.foldl sdpLine media = setControl (body.filterMap controlText).getLast? media := by
  induction body using List.reverseRecOn with
  | nil => rfl
  | append_singleton body line ih =>
    have hfront : ∀ l ∈ body, mediaText l = none := fun l hl => h l (List.mem_append_left _ hl)
    have hlast : mediaText line = none := h line (by simp)
    rw [List.foldl_append, List.foldl_cons, List.foldl_nil, ih hfront, sdpLine_attribute hlast,
      setControl_setControl, List.filterMap_append, List.getLast?_append]
    cases hcontrol : controlText line <;> simp [hcontrol]

/-- A section that is kept is what it says of itself, and one that is not leaves its control
attribute to the section before it. -/
theorem foldl_section (sec : SdpSection) (media : List SdpMedia) :
    sec.lines.foldl sdpLine media =
      sec.media?.elim (setControl sec.control media) fun m => media ++ [m] := by
  rw [SdpSection.lines, List.foldl_cons, sdpLine_line, foldl_body sec.within,
    SdpSection.media?]
  cases sec.kind with
  | none => exact congrArg _ (List.append_nil media)
  | some kind =>
    refine (setControl_concat _ _ _).trans ?_
    simp [SdpSection.control]

namespace SdpDocument

/-- The control attribute that the sections leave to the one before them: the last one of those
that are not kept. -/
def stray : List SdpSection → Option Str
  | [] => none
  | sec :: rest => if sec.kind.isSome then none else (stray rest).or sec.control

/-- The sections as the parser sees them. -/
def parsed : List SdpSection → List SdpMedia
  | [] => []
  | sec :: rest =>
    (sec.kind.map fun kind =>
      (⟨kind, sec.payloadType, (stray rest).or sec.control⟩ : SdpMedia)).toList ++ parsed rest

/-- The parser over a list of sections. -/
theorem foldl_sections (sections : List SdpSection) (media : List SdpMedia) :
    (sections.flatMap SdpSection.lines).foldl sdpLine media =
      setControl (stray sections) media ++ parsed sections := by
  induction sections generalizing media with
  | nil => exact (List.append_nil media).symm
  | cons sec rest ih =>
    rw [List.flatMap_cons, List.foldl_append, foldl_section, ih, stray, parsed, SdpSection.media?]
    cases sec.kind with
    | none =>
      exact congrArg (· ++ parsed rest) (setControl_setControl _ _ _)
    | some kind =>
      refine (congrArg (· ++ parsed rest) (setControl_concat _ _ _)).trans ?_
      exact List.append_assoc _ _ _

/-- **The parser over a description**: the lines of the session have no part in it. -/
theorem foldl_sdpLine (document : SdpDocument) :
    document.lines.foldl sdpLine [] = parsed document.sections := by
  rw [lines, List.foldl_append, foldl_body document.before, setControl_nil, foldl_sections,
    setControl_nil, List.nil_append]

/-! ## The attributes that stay in their section -/

/-- No section that is kept gets another control attribute from the sections behind it that are
not. -/
def KeepsControls (document : SdpDocument) : Prop :=
  ∀ sec rest, sec :: rest <:+ document.sections → sec.kind.isSome →
    stray rest = none ∨ stray rest = sec.control

theorem or_eq_right_iff {α : Type*} {a b : Option α} : a.or b = b ↔ a = none ∨ a = b := by
  cases a with
  | none => simp
  | some a => simp

theorem parsed_eq_filterMap_iff (sections : List SdpSection) :
    parsed sections = sections.filterMap SdpSection.media? ↔
      ∀ sec rest, sec :: rest <:+ sections → sec.kind.isSome →
        stray rest = none ∨ stray rest = sec.control := by
  induction sections with
  | nil => simp [parsed]
  | cons first behind ih =>
    have hsplit : (∀ sec rest, sec :: rest <:+ first :: behind → sec.kind.isSome →
          stray rest = none ∨ stray rest = sec.control) ↔
        (first.kind.isSome → stray behind = none ∨ stray behind = first.control) ∧
          ∀ sec rest, sec :: rest <:+ behind → sec.kind.isSome →
            stray rest = none ∨ stray rest = sec.control := by
      constructor
      · intro h
        exact ⟨h first behind List.suffix_rfl, fun sec rest hsuffix =>
          h sec rest (hsuffix.trans (List.suffix_cons _ _))⟩
      · rintro ⟨hfirst, hbehind⟩ sec rest hsuffix
        rcases List.suffix_cons_iff.mp hsuffix with heq | hsuffix
        · cases heq
          exact hfirst
        · exact hbehind sec rest hsuffix
    rw [hsplit, ← ih, parsed, List.filterMap_cons, SdpSection.media?]
    cases hkind : first.kind with
    | none => simp
    | some kind => simp [or_eq_right_iff]

theorem parsed_eq_nil_iff (sections : List SdpSection) :
    parsed sections = [] ↔ ∀ sec ∈ sections, sec.kind = none := by
  induction sections with
  | nil => simp [parsed]
  | cons sec rest ih =>
    rw [parsed, List.append_eq_nil_iff, ih, List.forall_mem_cons]
    cases sec.kind <;> simp

/-- **A description fails to parse** if and only if no section is one of video or audio. -/
theorem parseSdpMedia_eq_none_iff {document : SdpDocument} {sdp : Str}
    (h : Text.lines sdp = document.lines) :
    parseSdpMedia sdp = none ↔ ∀ sec ∈ document.sections, sec.kind = none := by
  rw [parseSdpMedia, h, foldl_sdpLine, ← parsed_eq_nil_iff]
  cases parsed document.sections <;> simp

/-- **A description is parsed section by section**, and fails where none is kept, if and only if no
section gets another control attribute from those behind it. -/
theorem parseSdpMedia_iff {document : SdpDocument} {sdp : Str}
    (h : Text.lines sdp = document.lines) :
    ((∀ media, parseSdpMedia sdp = some media → media = document.media) ∧
      (parseSdpMedia sdp = none ↔ ∀ sec ∈ document.sections, sec.kind = none)) ↔
      document.KeepsControls := by
  rw [and_iff_left (parseSdpMedia_eq_none_iff h), KeepsControls, ← parsed_eq_filterMap_iff,
    parseSdpMedia, h, foldl_sdpLine]
  cases hparsed : parsed document.sections with
  | nil =>
    have hnone := (parsed_eq_nil_iff _).mp hparsed
    have hmedia : document.sections.filterMap SdpSection.media? = [] :=
      List.filterMap_eq_nil_iff.mpr fun sec hsec => by
        rw [SdpSection.media?, hnone sec hsec]
        rfl
    simp [hmedia]
  | cons first rest => simp [media]

/-- A camera with a metadata stream in front of its track. -/
def metadataFirst : Str :=
  ("v=0\r\nm=application 0 RTP/AVP 107\r\na=control:track3\r\n" ++
    "m=video 0 RTP/AVP 96\r\na=control:track1\r\n").toList

theorem keepsControls_metadataFirst : (ofLines (Text.lines metadataFirst)).KeepsControls := by
  have hlines := (lines_ofLines (Text.lines metadataFirst)).symm
  refine (parseSdpMedia_iff hlines).mp ⟨fun media hmedia => ?_, parseSdpMedia_eq_none_iff hlines⟩
  have hparse : parseSdpMedia metadataFirst = some [⟨.video, 96, some "track1".toList⟩] := by
    decide +kernel
  obtain rfl := Option.some.inj (hparse.symm.trans hmedia)
  decide +kernel

/-- A camera with a metadata stream behind its track. -/
def metadataLast : Str :=
  ("v=0\r\nm=video 0 RTP/AVP 96\r\na=control:track1\r\n" ++
    "m=application 0 RTP/AVP 107\r\na=control:track3\r\n").toList

/-- The track gets the control attribute of the metadata. -/
theorem metadataLast_control :
    parseSdpMedia metadataLast = some [⟨.video, 96, some "track3".toList⟩] ∧
    (ofLines (Text.lines metadataLast)).media = [⟨.video, 96, some "track1".toList⟩] ∧
    ¬ ∀ (document : SdpDocument) (sdp : Str), Text.lines sdp = document.lines →
      (∀ media, parseSdpMedia sdp = some media → media = document.media) ∧
        (parseSdpMedia sdp = none ↔ ∀ sec ∈ document.sections, sec.kind = none) := by
  have hparse : parseSdpMedia metadataLast = some [⟨.video, 96, some "track3".toList⟩] := by
    decide +kernel
  have hmedia : (ofLines (Text.lines metadataLast)).media =
      [⟨.video, 96, some "track1".toList⟩] := by decide +kernel
  refine ⟨hparse, hmedia, fun hall => ?_⟩
  have heq := (hall _ _ (lines_ofLines _).symm).1 _ hparse
  rw [hmedia] at heq
  revert heq
  decide

end SdpDocument

end Fosipcore
