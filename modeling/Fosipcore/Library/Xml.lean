import Fosipcore.Library.Text

/-!
# XML without attributes

Elements with a name, their children, and character data. Attributes, comments, CDATA sections,
processing instructions and self-closing elements are left out. A reader that does not parse can
look for the text of an opening tag, and behind it for that of the closing tag. On the text of a
document it finds the first element of the name in document order, if this element has only
character data.

## Main definitions

* `XmlName`, `Xml`: names, and documents
* `Xml.render`: the text of documents
* `Xml.findAll`, `Xml.data`: the first element of a name, and the character data of its children
* `between`: the text between the first tags of a name

## Main results

* `splitOnce_tokens`: a tag is found where it stands first
* `between_render`: what is found between two tags
-/

namespace Fosipcore

open Text

/-! ## Documents -/

/-- The name of an element. -/
@[ext] structure XmlName where
  text : Str
  plain : ∀ c ∈ text, c ≠ '<' ∧ c ≠ '>' ∧ c ≠ '/'
  deriving DecidableEq

/-- A document: character data, or an element with its children. -/
inductive Xml where
  | text (s : Str) (plain : '<' ∉ s)
  | element (name : XmlName) (children : List Xml)

/-- A tag. -/
inductive XmlTag where
  | opening (name : XmlName)
  | closing (name : XmlName)
  deriving DecidableEq

/-- What the text of a document is made of. -/
inductive XmlToken where
  | text (s : Str) (plain : '<' ∉ s)
  | tag (tag : XmlTag)
  deriving DecidableEq

namespace XmlTag

/-- A tag without its brackets. -/
def body : XmlTag → Str
  | opening name => name.text
  | closing name => '/' :: name.text

def render (tag : XmlTag) : Str := '<' :: tag.body ++ ['>']

theorem body_plain (tag : XmlTag) : ∀ c ∈ tag.body, c ≠ '<' ∧ c ≠ '>' := by
  cases tag with
  | opening name => exact fun c hc => ⟨(name.plain c hc).1, (name.plain c hc).2.1⟩
  | closing name =>
    intro c hc
    rcases List.mem_cons.mp hc with rfl | hc
    · decide
    · exact ⟨(name.plain c hc).1, (name.plain c hc).2.1⟩

/-- A slash is in no name. -/
theorem text_ne_slash (name : XmlName) (s : Str) : name.text ≠ '/' :: s := fun h =>
  (name.plain '/' (h ▸ List.mem_cons_self)).2.2 rfl

theorem body_injective {a b : XmlTag} (h : a.body = b.body) : a = b := by
  cases a with
  | opening a =>
    cases b with
    | opening b => rw [XmlName.ext h]
    | closing b => exact absurd h (text_ne_slash a _)
  | closing a =>
    cases b with
    | opening b => exact absurd h.symm (text_ne_slash b _)
    | closing b => rw [XmlName.ext (List.cons.inj h).2]

end XmlTag

namespace XmlToken

def render : XmlToken → Str
  | .text s _ => s
  | .tag t => t.render

end XmlToken

/-- The text of tokens. -/
def renderTokens (tokens : List XmlToken) : Str := tokens.flatMap XmlToken.render

namespace Xml

mutual

def tokens : Xml → List XmlToken
  | text s plain => [.text s plain]
  | element name children => .tag (.opening name) :: (tokensAll children ++ [.tag (.closing name)])

def tokensAll : List Xml → List XmlToken
  | [] => []
  | node :: nodes => node.tokens ++ tokensAll nodes

end

/-- **The text of documents** that follow each other. -/
def render (nodes : List Xml) : Str := renderTokens (tokensAll nodes)

mutual

/-- The children of the first element of a name. -/
def find (name : XmlName) : Xml → Option (List Xml)
  | text _ _ => none
  | element n children => if n = name then some children else findAll name children

def findAll (name : XmlName) : List Xml → Option (List Xml)
  | [] => none
  | node :: nodes => (find name node).or (findAll name nodes)

end

/-- The character data, if there is no element. -/
def data : List Xml → Option Str
  | [] => some []
  | text s _ :: nodes => (data nodes).map (s ++ ·)
  | element _ _ :: _ => none

end Xml

/-! ## Looking for a tag -/

/-- Text without a bracket is no part of a tag. -/
theorem splitOnce_skip {s : Str} (h : '<' ∉ s) (pattern rest : Str) :
    splitOnce ('<' :: pattern) (s ++ rest) =
      (splitOnce ('<' :: pattern) rest).map fun p => (s ++ p.1, p.2) := by
  induction s with
  | nil => simp
  | cons c s ih =>
    rw [List.mem_cons, not_or] at h
    have hnot : ¬ ('<' :: pattern).isPrefixOf (c :: (s ++ rest)) = true := by simp [h.1]
    rw [List.cons_append, splitOnce, if_neg hnot, ih h.2, Option.map_map]
    rfl

/-- Two tags without their brackets are the same if one is in front of the other. -/
theorem body_eq_of_front {a b rest : Str} (ha : '>' ∉ a) (hb : '>' ∉ b)
    (h : a ++ ['>'] <+: b ++ '>' :: rest) : a = b := by
  obtain ⟨tail, htail⟩ := h
  have hsplit := splitOnce_char rest hb
  rw [← htail, List.append_assoc, List.singleton_append, splitOnce_char tail ha] at hsplit
  exact (Prod.mk.inj (Option.some.inj hsplit)).1

/-- **A token** is the tag that is looked for, or it is passed over. -/
theorem splitOnce_token (tag : XmlTag) (token : XmlToken) (rest : Str) :
    splitOnce tag.render (token.render ++ rest) =
      if token = .tag tag then some ([], rest)
      else (splitOnce tag.render rest).map fun p => (token.render ++ p.1, p.2) := by
  cases token with
  | text s plain =>
    rw [if_neg (by rintro ⟨⟩)]
    exact splitOnce_skip plain _ rest
  | tag other =>
    have hplain : ∀ t : XmlTag, '>' ∉ t.body := fun t h => (t.body_plain _ h).2 rfl
    have hrender : ∀ t : XmlTag,
        (XmlToken.tag t).render ++ rest = '<' :: (t.body ++ '>' :: rest) := by
      intro t
      simp [XmlToken.render, XmlTag.render]
    by_cases heq : other = tag
    · have hprefix : tag.render.isPrefixOf ('<' :: (tag.body ++ '>' :: rest)) = true := by
        rw [List.isPrefixOf_iff_prefix, ← hrender]
        exact List.prefix_append _ _
      rw [if_pos (congrArg _ heq), heq, hrender, splitOnce, if_pos hprefix, ← hrender]
      exact congrArg (fun after => some ([], after)) List.drop_left
    · have hnot : ¬ tag.render.isPrefixOf ('<' :: (other.body ++ '>' :: rest)) = true := by
        rw [List.isPrefixOf_iff_prefix]
        intro hprefix
        have hbody := (List.cons_prefix_cons.mp hprefix).2
        exact heq (XmlTag.body_injective (body_eq_of_front (hplain tag) (hplain other) hbody)).symm
      have hskip : '<' ∉ other.body ++ ['>'] := by
        rw [List.mem_append, not_or]
        exact ⟨fun h => (other.body_plain _ h).1 rfl, by decide⟩
      have hrest := splitOnce_skip hskip (tag.body ++ ['>']) rest
      rw [List.append_assoc, List.singleton_append] at hrest
      rw [if_neg fun h => heq (XmlToken.tag.inj h), hrender, splitOnce, if_neg hnot]
      refine (congrArg _ hrest).trans ?_
      rw [Option.map_map]
      rfl

/-- **The tokens in front of a tag** are passed over. -/
theorem splitOnce_tokens {tag : XmlTag} {tokens : List XmlToken} (h : .tag tag ∉ tokens)
    (rest : Str) :
    splitOnce tag.render (renderTokens tokens ++ rest) =
      (splitOnce tag.render rest).map fun p => (renderTokens tokens ++ p.1, p.2) := by
  induction tokens with
  | nil => simp [renderTokens]
  | cons token tokens ih =>
    rw [List.mem_cons, not_or] at h
    have hcons : renderTokens (token :: tokens) = token.render ++ renderTokens tokens :=
      List.flatMap_cons
    rw [hcons, List.append_assoc, splitOnce_token, if_neg (Ne.symm h.1), ih h.2, Option.map_map]
    simp only [Function.comp_def, List.append_assoc]

theorem renderTokens_append (a b : List XmlToken) :
    renderTokens (a ++ b) = renderTokens a ++ renderTokens b := List.flatMap_append

/-- **A tag is found where it stands first.** -/
theorem splitOnce_renderTokens {tag : XmlTag} {before after : List XmlToken}
    (h : .tag tag ∉ before) :
    splitOnce tag.render (renderTokens (before ++ .tag tag :: after)) =
      some (renderTokens before, renderTokens after) := by
  have hcons : renderTokens (.tag tag :: after) = (XmlToken.tag tag).render ++ renderTokens after :=
    List.flatMap_cons
  rw [renderTokens_append, splitOnce_tokens h, hcons, splitOnce_token, if_pos rfl]
  simp

theorem splitOnce_renderTokens_none {tag : XmlTag} {tokens : List XmlToken}
    (h : .tag tag ∉ tokens) : splitOnce tag.render (renderTokens tokens) = none := by
  have hsplit := splitOnce_tokens h []
  rw [List.append_nil] at hsplit
  rw [hsplit]
  rfl

/-! ## Looking for an element -/

namespace Xml

mutual

theorem find_none {name : XmlName} :
    ∀ node : Xml, find name node = none → .tag (.opening name) ∉ node.tokens
  | text s plain, _ => by simp [tokens]
  | element n children, h => by
    rw [find] at h
    split_ifs at h with hname
    have hchildren := findAll_none children h
    simp [tokens, hchildren, Ne.symm hname]

theorem findAll_none {name : XmlName} :
    ∀ nodes : List Xml, findAll name nodes = none → .tag (.opening name) ∉ tokensAll nodes
  | [], _ => by simp [tokensAll]
  | node :: nodes, h => by
    rw [findAll, Option.or_eq_none_iff] at h
    rw [tokensAll, List.mem_append, not_or]
    exact ⟨find_none node h.1, findAll_none nodes h.2⟩

end

mutual

/-- **The first element of a name** stands between the first opening tag of the name and a closing
one. -/
theorem find_some {name : XmlName} {children : List Xml} :
    ∀ node : Xml, find name node = some children →
      ∃ before after, node.tokens = before ++ .tag (.opening name) ::
        (tokensAll children ++ .tag (.closing name) :: after) ∧ .tag (.opening name) ∉ before
  | text s plain, h => by
    rw [find] at h
    cases h
  | element n nodes, h => by
    rw [find] at h
    split_ifs at h with hname
    · obtain rfl := Option.some.inj h
      exact ⟨[], [], by rw [tokens, hname]; rfl, List.not_mem_nil⟩
    · obtain ⟨before, after, htokens, hbefore⟩ := findAll_some nodes h
      refine ⟨.tag (.opening n) :: before, after ++ [.tag (.closing n)], ?_, ?_⟩
      · rw [tokens, htokens]
        simp
      · simp [hbefore, Ne.symm hname]

theorem findAll_some {name : XmlName} {children : List Xml} :
    ∀ nodes : List Xml, findAll name nodes = some children →
      ∃ before after, tokensAll nodes = before ++ .tag (.opening name) ::
        (tokensAll children ++ .tag (.closing name) :: after) ∧ .tag (.opening name) ∉ before
  | [], h => by
    rw [findAll] at h
    cases h
  | node :: nodes, h => by
    rw [findAll] at h
    cases hfind : find name node with
    | some found =>
      rw [hfind, Option.some_or] at h
      obtain rfl := Option.some.inj h
      obtain ⟨before, after, htokens, hbefore⟩ := find_some node hfind
      refine ⟨before, after ++ tokensAll nodes, ?_, hbefore⟩
      rw [tokensAll, htokens]
      simp
    | none =>
      -- the name is not in the first document
      rw [hfind, Option.none_or] at h
      obtain ⟨before, after, htokens, hbefore⟩ := findAll_some nodes h
      refine ⟨node.tokens ++ before, after, ?_, ?_⟩
      · rw [tokensAll, htokens, List.append_assoc]
      · rw [List.mem_append, not_or]
        exact ⟨find_none node hfind, hbefore⟩

end

/-- Character data has no tags. -/
theorem data_some {nodes : List Xml} {s : Str} (h : data nodes = some s) :
    (∀ tag, .tag tag ∉ tokensAll nodes) ∧ renderTokens (tokensAll nodes) = s := by
  induction nodes generalizing s with
  | nil =>
    obtain rfl := Option.some.inj h
    exact ⟨fun tag => List.not_mem_nil, rfl⟩
  | cons node nodes ih =>
    cases node with
    | element name children => cases h
    | text front plain =>
      obtain ⟨behind, hbehind, rfl⟩ := Option.map_eq_some_iff.mp h
      obtain ⟨htags, hrender⟩ := ih hbehind
      refine ⟨fun tag => ?_, ?_⟩
      · simp [tokensAll, tokens, htags]
      · rw [← hrender]
        rfl

/-- Where there is an element, its opening tag is the first of the tags. -/
theorem data_none {nodes : List Xml} (h : data nodes = none) :
    ∃ front name behind, tokensAll nodes = front ++ .tag (.opening name) :: behind ∧
      ∀ tag, .tag tag ∉ front := by
  induction nodes with
  | nil => cases h
  | cons node nodes ih =>
    cases node with
    | element name children =>
      refine ⟨[], name, _, rfl, fun tag => List.not_mem_nil⟩
    | text s plain =>
      obtain ⟨front, name, behind, htokens, hfront⟩ := ih (Option.map_eq_none_iff.mp h)
      refine ⟨.text s plain :: front, name, behind, ?_, fun tag => ?_⟩
      · rw [tokensAll, tokens, htokens]
        rfl
      · simp [hfront]

end Xml

/-! ## Between two tags -/

/-- What stands between the first opening tag of a name and the next closing one. -/
def between (name : XmlName) (text : Str) : Option Str := do
  let (_, rest) ← splitOnce (XmlTag.opening name).render text
  let (value, _) ← splitOnce (XmlTag.closing name).render rest
  return value

/-- **What is found between two tags** is the character data of the first element of the name, or it
has a bracket in it. -/
theorem between_render (name : XmlName) (nodes : List Xml) :
    (Xml.findAll name nodes = none ∧ between name (Xml.render nodes) = none) ∨
    ∃ children, Xml.findAll name nodes = some children ∧
      ((∃ s, Xml.data children = some s ∧ between name (Xml.render nodes) = some s) ∨
        (Xml.data children = none ∧ ∃ value, between name (Xml.render nodes) = some value ∧
          '<' ∈ value)) := by
  cases hfind : Xml.findAll name nodes with
  | none =>
    refine .inl ⟨rfl, ?_⟩
    rw [between, Xml.render, splitOnce_renderTokens_none (Xml.findAll_none nodes hfind)]
    rfl
  | some children =>
    obtain ⟨before, after, htokens, hbefore⟩ := Xml.findAll_some nodes hfind
    have hbetween : between name (Xml.render nodes) =
        (splitOnce (XmlTag.closing name).render
          (renderTokens (Xml.tokensAll children ++ .tag (.closing name) :: after))).map Prod.fst := by
      rw [between, Xml.render, htokens, splitOnce_renderTokens hbefore]
      simp only [Option.bind_eq_bind, Option.bind_some]
      cases splitOnce (XmlTag.closing name).render
        (renderTokens (Xml.tokensAll children ++ .tag (.closing name) :: after)) <;> rfl
    refine .inr ⟨children, rfl, ?_⟩
    rw [hbetween]
    cases hdata : Xml.data children with
    | some s =>
      obtain ⟨htags, hrender⟩ := Xml.data_some hdata
      rw [splitOnce_renderTokens (htags _), hrender]
      exact .inl ⟨s, rfl, rfl⟩
    | none =>
      -- the opening tag of an element comes before every closing one
      obtain ⟨front, child, behind, hchildren, hfront⟩ := Xml.data_none hdata
      have hmem : .tag (.closing name) ∈ behind ++ .tag (.closing name) :: after :=
        List.mem_append_right _ List.mem_cons_self
      obtain ⟨skipped, rest, hrest, hskipped⟩ := List.eq_append_cons_of_mem hmem
      have hall : Xml.tokensAll children ++ .tag (.closing name) :: after =
          (front ++ .tag (.opening child) :: skipped) ++ .tag (.closing name) :: rest := by
        rw [hchildren, List.append_assoc, List.append_assoc, List.cons_append, List.cons_append,
          hrest]
      have hfirst : .tag (.closing name) ∉ front ++ .tag (.opening child) :: skipped := by
        simp [hfront, hskipped]
      rw [hall, splitOnce_renderTokens hfirst]
      refine .inr ⟨rfl, _, rfl, ?_⟩
      rw [renderTokens_append]
      exact List.mem_append_right _ List.mem_cons_self

end Fosipcore
