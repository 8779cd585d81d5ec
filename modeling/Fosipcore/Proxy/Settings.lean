import Fosipcore.Library.Xml
import Fosipcore.Proxy.Cgi

/-!
# The settings of a camera

After a login the settings are looked for in five XML documents, with a search for the texts of tags.
On the text of a document this is the look-up in the document itself: of the first element of a name,
if it holds a number. Elements may stand in any order and at any depth, with others around them.

## Main definitions

* `Xml.number`: the number in the first element of a name
* `Cgi.documentInfo`: the init info of documents

## Main results

* `Cgi.extractXmlValue_render`: the search agrees with the look-up
* `Cgi.gatherInitInfo_render`: the init info is that of the documents
-/

namespace Fosipcore

open Text

/-- A character of a name. -/
def isNameChar (c : Char) : Bool := c ≠ '<' && c ≠ '>' && c ≠ '/'

/-- The name of the characters that may be in one. -/
def XmlName.ofText (s : Str) : XmlName where
  text := s.filter isNameChar
  plain := by
    intro c hc
    simpa [isNameChar, and_assoc] using (List.mem_filter.mp hc).2

/-- The number in the first element of a name. -/
def Xml.number (name : XmlName) (nodes : List Xml) : Option UInt32 :=
  ((findAll name nodes).bind data).bind fun s =>
    (parseUnsigned 4294967295 (trim s)).map UInt32.ofNat

namespace Cgi

/-! ## The search -/

theorem extractXmlValue_eq (name : XmlName) (xml : Str) :
    extractXmlValue xml name.text =
      (between name xml).bind fun s => (parseUnsigned 4294967295 (trim s)).map UInt32.ofNat := by
  have hopening : '<' :: name.text ++ ['>'] = (XmlTag.opening name).render := rfl
  have hclosing : "</".toList ++ name.text ++ ['>'] = (XmlTag.closing name).render := rfl
  rw [extractXmlValue, between, hopening, hclosing]
  simp only [Option.bind_eq_bind]
  cases splitOnce (XmlTag.opening name).render xml with
  | none => rfl
  | some p =>
    simp only [Option.bind_some]
    cases splitOnce (XmlTag.closing name).render p.2 with
    | none => rfl
    | some q => rfl

/-- A number has no bracket in it. -/
theorem parseUnsigned_bracket {s : Str} (h : '<' ∈ s) (max : ℕ) :
    parseUnsigned max (trim s) = none :=
  parseUnsigned_eq_none (mem_trim (by decide) h) (by decide) (by decide)

/-- **The search agrees with the look-up** in the document. -/
theorem extractXmlValue_render (name : XmlName) (nodes : List Xml) :
    extractXmlValue (Xml.render nodes) name.text = Xml.number name nodes := by
  rw [extractXmlValue_eq, Xml.number]
  rcases between_render name nodes with ⟨hfind, hbetween⟩ | ⟨children, hfind, hchildren⟩
  · rw [hfind, hbetween]
    rfl
  · rw [hfind, Option.bind_some]
    rcases hchildren with ⟨s, hdata, hbetween⟩ | ⟨hdata, value, hbetween, hbracket⟩
    · rw [hdata, hbetween]
    · -- an element inside has brackets
      rw [hdata, hbetween, Option.bind_some, parseUnsigned_bracket hbracket]
      rfl

/-! ## The init info of documents -/

/-- A setting in a document, with its default. -/
def documentSetting (tag : Str) (default : UInt32) (nodes : List Xml) : UInt32 :=
  (Xml.number (.ofText tag) nodes).getD default

/-- The five parameters of each of the four streams. -/
def documentStreamParam : Option (List Xml) → List UInt32
  | none => defaultStreamParam
  | some nodes => (List.range 4).flatMap fun i =>
    let value tag default := documentSetting (tag ++ numeral i) default nodes
    [value "resolution".toList 9, value "bitRate".toList 2097152, value "frameRate".toList 15,
      value "GOP".toList 30, value "isVBR".toList 1]

/-- **The init info of the documents** that a camera answers with, if it does. -/
def documentInfo (docs : Query → Option (List Xml)) (livePort : UInt16) : InitInfo :=
  let setting tag default query := (docs query).elim default (documentSetting tag default)
  { livePort := livePort
    volume := setting "volume".toList 100 .getAudioSetting
    streamParam := documentStreamParam (docs .getVideoStreamParam)
    brightness := setting "brightness".toList 50 .getImageSetting
    contrast := setting "contrast".toList 47 .getImageSetting
    hue := setting "hue".toList 55 .getImageSetting
    saturation := setting "saturation".toList 20 .getImageSetting
    sharpness := setting "sharpness".toList 30 .getImageSetting
    infraLedMode := setting "mode".toList 0 .getInfraLedConfig
    usrPrivilege := 2 }

/-- The camera answers with documents, or not at all. -/
def AnswersWith (query : Query → Option HttpResponse) (docs : Query → Option (List Xml)) : Prop :=
  ∀ q, ((query q).map cgiResult).map CgiResponse.response = (docs q).map Xml.render

theorem extractXmlValue_ofText {tag : Str} (h : tag.all isNameChar = true) (nodes : List Xml)
    (default : UInt32) :
    (extractXmlValue (Xml.render nodes) tag).getD default = documentSetting tag default nodes := by
  have htext : (XmlName.ofText tag).text = tag := List.filter_eq_self.mpr (List.all_eq_true.mp h)
  rw [documentSetting, ← extractXmlValue_render, htext]

theorem parseSetting_render {tag : Str} (h : tag.all isNameChar = true) {resp : Option CgiResponse}
    {nodes : Option (List Xml)} (hresp : resp.map CgiResponse.response = nodes.map Xml.render)
    (default : UInt32) :
    parseSetting tag default default resp = nodes.elim default (documentSetting tag default) := by
  cases resp with
  | none =>
    rw [Option.map_none, eq_comm, Option.map_eq_none_iff] at hresp
    rw [hresp]
    rfl
  | some resp =>
    rw [Option.map_some, eq_comm, Option.map_eq_some_iff] at hresp
    obtain ⟨nodes, rfl, hrender⟩ := hresp
    rw [parseSetting, ← hrender, extractXmlValue_ofText h]
    rfl

theorem all_isNameChar_numeral (n : ℕ) : (numeral n).all isNameChar = true := by
  rw [List.all_eq_true]
  intro c hc
  have hdigit := isDigit_of_mem_numeral hc
  have hne : ∀ d : Char, d.isDigit = false → c ≠ d := by
    rintro d hd rfl
    rw [hd] at hdigit
    cases hdigit
  simp [isNameChar, hne '<' rfl, hne '>' rfl, hne '/' rfl]

theorem parseStreamParam_render {resp : Option CgiResponse} {nodes : Option (List Xml)}
    (hresp : resp.map CgiResponse.response = nodes.map Xml.render) :
    parseStreamParam resp = documentStreamParam nodes := by
  cases resp with
  | none =>
    rw [Option.map_none, eq_comm, Option.map_eq_none_iff] at hresp
    rw [hresp]
    rfl
  | some resp =>
    rw [Option.map_some, eq_comm, Option.map_eq_some_iff] at hresp
    obtain ⟨nodes, rfl, hrender⟩ := hresp
    have hvalue : ∀ (tag : Str) (i : ℕ) (default : UInt32), tag.all isNameChar = true →
        (extractXmlValue resp.response (tag ++ numeral i)).getD default =
          documentSetting (tag ++ numeral i) default nodes := by
      intro tag i default htag
      rw [← hrender]
      refine extractXmlValue_ofText ?_ nodes default
      rw [List.all_append, htag, all_isNameChar_numeral]
      rfl
    rw [parseStreamParam, documentStreamParam]
    refine congrArg (fun f => (List.range 4).flatMap f) (funext fun i => ?_)
    simp only []
    rw [hvalue _ i 9 rfl, hvalue _ i 2097152 rfl, hvalue _ i 15 rfl, hvalue _ i 30 rfl,
      hvalue _ i 1 rfl]

/-- **The init info is that of the documents**, and the product info is the text of its own. -/
theorem gatherInitInfo_render {query : Query → Option HttpResponse}
    {docs : Query → Option (List Xml)} (h : AnswersWith query docs) (livePort : UInt16) :
    gatherInitInfo query livePort =
      ((docs .getProductAllInfo).map Xml.render, documentInfo docs livePort) := by
  rw [gatherInitInfo, documentInfo]
  simp only []
  rw [h, parseStreamParam_render (h _), parseSetting_render rfl (h .getAudioSetting),
    parseSetting_render rfl (h .getInfraLedConfig), parseSetting_render rfl (h .getImageSetting),
    parseSetting_render rfl (h .getImageSetting), parseSetting_render rfl (h .getImageSetting),
    parseSetting_render rfl (h .getImageSetting), parseSetting_render rfl (h .getImageSetting)]

end Cgi

end Fosipcore
