import M8flow.Catalog.Identifiers
import M8flow.Lib.Xml
import Mathlib.Data.List.Forall2

/-!
# Diagrams without logic

`diagram_only_bpmn_xml` of `workflow/__init__.py`: the BPMN source for readers of an instance
who may not read the files of its model.  It removes elements with their tails, and empties
the text of the logic elements that stay.

The parser gets the text in UTF-8 and reads it in the encoding that it declares.

- `kept` are the elements of a document that stay, and `iter_reduce` says that they do.
- `Reduced` is what a document without logic has to be.
- `Plain` is what the source has to meet: in the logic elements nothing else has text, no entity
  is referred to, and the names, attributes and references are read as the text has them.
- `faithful_iff` connects the two.
-/

namespace M8flow.Workflow.DiagramXml

open M8flow.Catalog M8flow.Lib M8flow.Lib.Xml

/-! ## The function -/

/-- `_DIAGRAM_NAMESPACES`. -/
def diagramNamespaces : List Text :=
  ["http://www.omg.org/spec/BPMN/20100524/MODEL".toList,
    "http://www.omg.org/spec/BPMN/20100524/DI".toList,
    "http://www.omg.org/spec/DD/20100524/DC".toList,
    "http://www.omg.org/spec/DD/20100524/DI".toList,
    "http://www.w3.org/2001/XMLSchema-instance".toList,
    "http://bpmn.io/schema/bpmn/biocolor/1.0".toList,
    "http://www.omg.org/spec/BPMN/non-normative/color/1.0".toList]

/-- `_BPMN_LOGIC_TEXT_TAGS`. -/
def bpmnLogicTextTags : List Text :=
  ["script".toList, "conditionExpression".toList, "completionCondition".toList,
    "loopCardinality".toList, "loopCondition".toList, "activationCondition".toList,
    "condition".toList, "timeDate".toList, "timeDuration".toList, "timeCycle".toList,
    "formalExpression".toList, "messagePath".toList, "dataPath".toList,
    "transformation".toList, "from".toList, "to".toList]

/-- The value of an attribute, and the entities that it refers to and that stay unresolved. -/
structure AttributeValue where
  text : Text
  entities : List Text
  deriving Repr, DecidableEq

/-- A node of the parsed document. -/
abbrev Element := Node AttributeValue

/-- The element goes. -/
def isForeign : Element → Bool
  | .element name _ _ _ =>
      name.uri ∉ diagramNamespaces.map some || name.localName = "extensionElements".toList
  | .entity _ => false

/-- The attribute stays. -/
def isDiagramAttribute (name : Name) : Bool :=
  name.uri = none || name.uri ∈ diagramNamespaces.map some

def isLogic (element : Element) : Bool := element.localName ∈ bpmnLogicTextTags

mutual

/-- The loop over the elements.  What it does to one depends on that element alone: it removes
it with its tail, or leaves some of its attributes and empties its text. -/
def reduce : Element → Element
  | .element name attrib text children =>
      .element name (attrib.filter fun entry => isDiagramAttribute entry.1)
        (if name.localName ∈ bpmnLogicTextTags then [] else text) (reduceAll children)
  | .entity name => .entity name

def reduceAll : List (Element × Text) → List (Element × Text)
  | [] => []
  | (child, tail) :: rest =>
      if isForeign child then reduceAll rest else (reduce child, tail) :: reduceAll rest

end

/-- lxml: the text that it reads in bytes, in the encoding that they declare or else in UTF-8; the
document that a text is, which it refuses for some; and the writer, which writes no declaration
and no document type. -/
structure Lxml where
  decode : Bytes → Option Text
  document : Text → Option Element
  tostring : Element → Text

/-- `etree.fromstring`. -/
def Lxml.fromstring (lxml : Lxml) (content : Bytes) : Option Element :=
  (lxml.decode content).bind lxml.document

/-- The document that is written, if any. -/
def diagramOnly (root : Element) : Option Element :=
  if isForeign root then none else some (reduce root)

/-- `diagram_only_bpmn_xml`. -/
def diagramOnlyBpmnXml (lxml : Lxml) (xml : Text) : Option Text :=
  ((lxml.fromstring (encodeUtf8 xml)).bind diagramOnly).map lxml.tostring

/-! ## What stays -/

mutual

/-- The elements with nothing foreign above them, in document order. -/
def kept : Element → List Element
  | .element name attrib text children => .element name attrib text children :: keptAll children
  | .entity _ => []

def keptAll : List (Element × Text) → List Element
  | [] => []
  | (child, _) :: rest => (if isForeign child then [] else kept child) ++ keptAll rest

end

mutual

/-- The element and what is in it have no text, and no tail or entity is in it. -/
def silent : Element → Bool
  | .element _ _ text children => text.isEmpty && silentAll children
  | .entity _ => false

def silentAll : List (Element × Text) → Bool
  | [] => true
  | (child, tail) :: rest => silent child && tail.isEmpty && silentAll rest

end

mutual

/-- What stays of the element has no text but what is emptied. -/
def mute : Element → Bool
  | .element name _ text children =>
      (decide (name.localName ∈ bpmnLogicTextTags) || text.isEmpty) && muteAll children
  | .entity _ => false

def muteAll : List (Element × Text) → Bool
  | [] => true
  | (child, tail) :: rest => (isForeign child || (mute child && tail.isEmpty)) && muteAll rest

end

mutual

/-- The element refers to no entity. -/
def closed : Element → Bool
  | .element _ attrib _ children =>
      (attrib.all fun entry => entry.2.entities.isEmpty) && closedAll children
  | .entity _ => false

def closedAll : List (Element × Text) → Bool
  | [] => true
  | (child, _) :: rest => closed child && closedAll rest

end

mutual

/-- What stays of the element refers to no entity. -/
def resolved : Element → Bool
  | .element _ attrib _ children =>
      (attrib.all fun entry =>
        !isDiagramAttribute entry.1 || entry.2.entities.isEmpty) && resolvedAll children
  | .entity _ => false

def resolvedAll : List (Element × Text) → Bool
  | [] => true
  | (child, _) :: rest => (isForeign child || resolved child) && resolvedAll rest

end

@[simp] theorem isForeign_reduce (node : Element) : isForeign (reduce node) = isForeign node := by
  cases node with
  | element name attrib text children => rfl
  | entity name => rfl

@[simp] theorem localName_reduce (node : Element) : (reduce node).localName = node.localName := by
  cases node with
  | element name attrib text children => rfl
  | entity name => rfl

theorem iter_reduce_both : (∀ node : Element, (reduce node).iter = (kept node).map reduce) ∧
    ∀ children : List (Element × Text),
      Node.iterAll (reduceAll children) = (keptAll children).map reduce := by
  apply Node.induct
  · intro name attrib text children ih
    simp [reduce, Node.iter, kept, ih]
  · intro name
    rfl
  · rfl
  · intro child tail rest hchild hrest
    cases hforeign : isForeign child with
    | true => simp [reduceAll, keptAll, hforeign, hrest]
    | false => simp [reduceAll, keptAll, hforeign, Node.iterAll, hchild, hrest]

/-- The elements that stay are the kept ones. -/
theorem iter_reduce (node : Element) : (reduce node).iter = (kept node).map reduce :=
  iter_reduce_both.1 node

theorem silent_reduce_both : (∀ node : Element, silent (reduce node) = mute node) ∧
    ∀ children : List (Element × Text), silentAll (reduceAll children) = muteAll children := by
  apply Node.induct
  · intro name attrib text children ih
    by_cases hlogic : name.localName ∈ bpmnLogicTextTags
    · simp [reduce, silent, mute, hlogic, ih]
    · simp [reduce, silent, mute, hlogic, ih]
  · intro name
    rfl
  · rfl
  · intro child tail rest hchild hrest
    cases hforeign : isForeign child with
    | true => simp [reduceAll, muteAll, hforeign, hrest]
    | false => simp [reduceAll, muteAll, hforeign, silentAll, hchild, hrest]

theorem closed_reduce_both : (∀ node : Element, closed (reduce node) = resolved node) ∧
    ∀ children : List (Element × Text), closedAll (reduceAll children) = resolvedAll children := by
  apply Node.induct
  · intro name attrib text children ih
    simp [reduce, closed, resolved, ih, List.all_filter]
  · intro name
    rfl
  · rfl
  · intro child tail rest hchild hrest
    cases hforeign : isForeign child with
    | true => simp [reduceAll, resolvedAll, hforeign, hrest]
    | false => simp [reduceAll, resolvedAll, hforeign, closedAll, hchild, hrest]

theorem reduce_reduce_both : (∀ node : Element, reduce (reduce node) = reduce node) ∧
    ∀ children : List (Element × Text), reduceAll (reduceAll children) = reduceAll children := by
  apply Node.induct
  · intro name attrib text children ih
    by_cases hlogic : name.localName ∈ bpmnLogicTextTags
    · simp [reduce, hlogic, ih]
    · simp [reduce, hlogic, ih]
  · intro name
    rfl
  · rfl
  · intro child tail rest hchild hrest
    cases hforeign : isForeign child with
    | true => simp [reduceAll, hforeign, hrest]
    | false => simp [reduceAll, hforeign, hchild, hrest]

/-- What is reduced stays as it is. -/
theorem reduce_reduce (node : Element) : reduce (reduce node) = reduce node :=
  reduce_reduce_both.1 node

/-! ## References in texts -/

/-- The elements whose text is the name of another one, by the ends of their names apart. -/
def referenceTags : List Text :=
  ["incoming".toList, "outgoing".toList, "source".toList, "target".toList, "supports".toList]

/-- The text of the element is the id of another one. -/
def isReference (element : Element) : Bool :=
  let name := element.localName
  name ∈ referenceTags || "Ref".toList.isSuffixOf name || "Refs".toList.isSuffixOf name

/-- What the element itself says, without its children and without white space. -/
def words (element : Element) : Text :=
  (element.text ++ (element.children.map Prod.snd).flatten).filter fun c => !Text.isSpace c

/-- What of it does not go with a child. -/
def staying (element : Element) : Text :=
  (element.text ++
    ((element.children.filter fun child => !isForeign child.1).map Prod.snd).flatten).filter
      fun c => !Text.isSpace c

/-- Nothing but white space stands behind what goes. -/
def TailsBlank (element : Element) : Prop :=
  ∀ child ∈ element.children, isForeign child.1 = true → child.2.all Text.isSpace = true

theorem not_logic_of_isReference {element : Element} (h : isReference element = true) :
    element.localName ∉ bpmnLogicTextTags := by
  have hnone : ∀ tag ∈ bpmnLogicTextTags, (tag ∈ referenceTags ||
      "Ref".toList.isSuffixOf tag || "Refs".toList.isSuffixOf tag) = false := by decide
  intro hmem
  have hfalse := hnone _ hmem
  unfold isReference at h
  dsimp only at h
  rw [hfalse] at h
  cases h

theorem isReference_congr {element other : Element} (h : other.name? = element.name?) :
    isReference other = isReference element := by
  have hname : other.localName = element.localName := by
    cases element with
    | element name attrib text children =>
        cases other with
        | element name' attrib' text' children' => rw [Node.localName, Option.some.inj h]; rfl
        | entity name' => cases h
    | entity name =>
        cases other with
        | element name' attrib' text' children' => cases h
        | entity name' => rfl
  unfold isReference
  rw [hname]

/-- The tails that stay. -/
theorem map_snd_reduceAll (children : List (Element × Text)) :
    (reduceAll children).map Prod.snd =
      (children.filter fun child => !isForeign child.1).map Prod.snd := by
  induction children with
  | nil => rfl
  | cons child rest ih =>
      obtain ⟨node, tail⟩ := child
      cases hforeign : isForeign node with
      | true => simp [reduceAll, hforeign, ih]
      | false => simp [reduceAll, hforeign, ih]

theorem words_reduce {element : Element} (h : isReference element = true) :
    words (reduce element) = staying element := by
  have hlogic := not_logic_of_isReference h
  cases element with
  | entity name => rfl
  | element name attrib text children =>
      have hlogic' : name.localName ∉ bpmnLogicTextTags := hlogic
      unfold words staying
      rw [reduce, if_neg hlogic']
      simp only [Node.text, Node.children, map_snd_reduceAll]

theorem filter_tails_length_le (children : List (Element × Text)) (p : Char → Bool) :
    ((((children.filter fun child => !isForeign child.1).map Prod.snd).flatten).filter p).length ≤
      (((children.map Prod.snd).flatten).filter p).length := by
  induction children with
  | nil => exact Nat.le_refl _
  | cons child rest ih =>
      cases hforeign : isForeign child.1 with
      | true =>
          simp only [List.filter_cons, hforeign, Bool.not_true, Bool.false_eq_true, if_false,
            List.map_cons, List.flatten_cons, List.filter_append, List.length_append]
          omega
      | false =>
          simp only [List.filter_cons, hforeign, Bool.not_false, if_true, List.map_cons,
            List.flatten_cons, List.filter_append, List.length_append]
          omega

/-- A reference says the same without what goes, if nothing but white space goes with it. -/
theorem staying_eq_words {element : Element} : staying element = words element ↔
    TailsBlank element := by
  unfold staying words TailsBlank
  rw [List.filter_append, List.filter_append, List.append_cancel_left_eq]
  induction element.children with
  | nil => simp
  | cons child rest ih =>
      have hblank : child.2.filter (fun c => !Text.isSpace c) = [] ↔
          child.2.all Text.isSpace = true := by
        simp [List.filter_eq_nil_iff]
      rw [List.forall_mem_cons, ← ih]
      cases hforeign : isForeign child.1 with
      | true =>
          simp only [List.filter_cons, hforeign, Bool.not_true, Bool.false_eq_true, if_false,
            List.map_cons, List.flatten_cons, List.filter_append, forall_const]
          rw [← hblank]
          constructor
          · intro hsame
            have hle := filter_tails_length_le rest fun c => !Text.isSpace c
            rw [hsame, List.length_append] at hle
            have hnil : child.2.filter (fun c => !Text.isSpace c) = [] :=
              List.length_eq_zero_iff.mp (by omega)
            rw [hnil, List.nil_append] at hsame
            exact ⟨hnil, hsame⟩
          · intro h
            rw [h.1, h.2, List.nil_append]
      | false =>
          simp only [List.filter_cons, hforeign, Bool.not_false, if_true, List.map_cons,
            List.flatten_cons, List.filter_append, List.append_cancel_left_eq]
          exact ⟨fun h => ⟨fun hfalse => absurd hfalse Bool.false_ne_true, h⟩, fun h => h.2⟩

/-! ## The claim on a document -/

/-- The element is another one without what is no diagram. -/
structure Keeps (element element' : Element) : Prop where
  name : element'.name? = element.name?
  attributes : ∀ entry ∈ element.attrib, isDiagramAttribute entry.1 = true →
    entry ∈ element'.attrib
  references : isReference element = true → words element' = words element

/-- The second document is without logic, and else the first one, where there is one. -/
structure Reduced (document : Option Element) (root' : Element) : Prop where
  elements : ∀ element ∈ root'.iter, isForeign element = false ∧
    ∀ entry ∈ element.attrib, isDiagramAttribute entry.1 = true
  silent : ∀ element ∈ root'.iter, isLogic element = true → silent element = true
  keeps : ∀ root ∈ document, List.Forall₂ Keeps (kept root) root'.iter

/-- What is written for the text has no logic, keeps the rest of the document that the text is,
and is what is written for itself. -/
def Faithful (lxml : Lxml) (xml : Text) : Prop :=
  ∀ parsed root', lxml.fromstring (encodeUtf8 xml) = some parsed →
    diagramOnly parsed = some root' →
      Reduced (lxml.document xml) root' ∧
        diagramOnlyBpmnXml lxml (lxml.tostring root') = some (lxml.tostring root')

/-- The element is read with its name and its attributes, and as a reference with its text,
without what goes of it. -/
structure ReadAs (element read : Element) : Prop where
  name : read.name? = element.name?
  attributes : ∀ entry ∈ element.attrib, isDiagramAttribute entry.1 = true → entry ∈ read.attrib
  references : isReference element = true → staying read = words element

/-- Nothing in the kept logic elements has text that is not emptied, what stays refers to no
entity, and it is read as the document has it. -/
structure Plain (document : Option Element) (parsed : Element) : Prop where
  logic : ∀ element ∈ kept parsed, isLogic element = true → muteAll element.children = true
  resolved : resolved parsed = true
  read : ∀ root ∈ document, List.Forall₂ ReadAs (kept root) (kept parsed)

/-- In an encoding that gives the text back, the references are to be without text behind what
goes. -/
theorem readAs_self {elements : List Element} : List.Forall₂ ReadAs elements elements ↔
    ∀ element ∈ elements, isReference element = true → TailsBlank element := by
  rw [List.forall₂_same]
  refine forall₂_congr fun element _ => ⟨fun h hreference => ?_, fun h => ?_⟩
  · exact staying_eq_words.mp (h.references hreference)
  · exact ⟨rfl, fun _ hentry _ => hentry, fun hreference => staying_eq_words.mpr (h hreference)⟩

/-- What lxml wrote it reads again, unless that refers to an entity, which is then not
declared. -/
structure RoundTrips (lxml : Lxml) (element : Element) : Prop where
  reads : closed element = true →
    lxml.fromstring (encodeUtf8 (lxml.tostring element)) = some element
  refuses : closed element = false → lxml.fromstring (encodeUtf8 (lxml.tostring element)) = none

theorem kept_both : (∀ node : Element, isForeign node = false →
      ∀ element ∈ kept node, isForeign element = false ∧ element.isElement = true) ∧
    ∀ children : List (Element × Text),
      ∀ element ∈ keptAll children, isForeign element = false ∧ element.isElement = true := by
  apply Node.induct
  · intro name attrib text children ih hforeign element hmem
    rw [kept] at hmem
    rcases List.mem_cons.mp hmem with hroot | hbelow
    · rw [hroot]
      exact ⟨hforeign, rfl⟩
    · exact ih element hbelow
  · intro name _ element hmem
    cases hmem
  · intro element hmem
    cases hmem
  · intro child tail rest hchild hrest element hmem
    rw [keptAll] at hmem
    rcases List.mem_append.mp hmem with hin | hlater
    · split at hin
      · cases hin
      · rename_i hforeign
        exact hchild (Bool.not_eq_true _ ▸ hforeign) element hin
    · exact hrest element hlater

theorem attrib_reduce (element : Element) :
    (reduce element).attrib = element.attrib.filter fun entry => isDiagramAttribute entry.1 := by
  cases element with
  | element name attrib text children =>
      rw [reduce]
      rfl
  | entity name =>
      rw [reduce]
      rfl

theorem name?_reduce (element : Element) : (reduce element).name? = element.name? := by
  cases element with
  | element name attrib text children =>
      rw [reduce]
      rfl
  | entity name => rw [reduce]

/-- What is read of an element is kept, if it is read right. -/
theorem keeps_reduce {element read : Element} :
    Keeps element (reduce read) ↔ ReadAs element read := by
  have hattributes : (∀ entry ∈ element.attrib, isDiagramAttribute entry.1 = true →
      entry ∈ (reduce read).attrib) ↔
      ∀ entry ∈ element.attrib, isDiagramAttribute entry.1 = true → entry ∈ read.attrib := by
    refine forall₃_congr fun entry _ hdiagram => ?_
    rw [attrib_reduce, List.mem_filter, and_iff_left hdiagram]
  have hreferences (hname : read.name? = element.name?) (h : isReference element = true) :
      words (reduce read) = staying read :=
    words_reduce ((isReference_congr hname).trans h)
  constructor
  · intro h
    have hname := (name?_reduce read).symm.trans h.name
    exact ⟨hname, hattributes.mp h.attributes,
      fun href => (hreferences hname href).symm.trans (h.references href)⟩
  · intro h
    exact ⟨(name?_reduce read).trans h.name, hattributes.mpr h.attributes,
      fun href => (hreferences h.name href).trans (h.references href)⟩

/-- A kept logic element is silent, if what stays of its children is. -/
theorem silent_reduce {element : Element} (helement : element.isElement = true)
    (hlogic : isLogic element = true) :
    silent (reduce element) = muteAll element.children := by
  rw [silent_reduce_both.1]
  cases element with
  | element name attrib text children =>
      have htag : decide (name.localName ∈ bpmnLogicTextTags) = true := hlogic
      rw [mute, htag, Bool.true_or, Bool.true_and]
      rfl
  | entity name => cases helement

/-- What is written is the document without logic, exactly if the logic elements are plain and the
document is read right. -/
theorem reduced_iff {document : Option Element} {parsed : Element}
    (hparsed : isForeign parsed = false) :
    Reduced document (reduce parsed) ↔
      (∀ element ∈ kept parsed, isLogic element = true → muteAll element.children = true) ∧
        ∀ root ∈ document, List.Forall₂ ReadAs (kept root) (kept parsed) := by
  have hkept := kept_both.1 parsed hparsed
  have hsilent : (∀ element ∈ (reduce parsed).iter, isLogic element = true →
      silent element = true) ↔
      ∀ element ∈ kept parsed, isLogic element = true → muteAll element.children = true := by
    rw [iter_reduce, List.forall_mem_map]
    apply forall₂_congr
    intro element hmem
    have hlogic : isLogic (reduce element) = isLogic element := by
      unfold isLogic
      rw [localName_reduce]
    rw [hlogic]
    apply imp_congr_right
    intro h
    rw [silent_reduce (hkept element hmem).2 h]
  have hkeeps : (∀ root ∈ document, List.Forall₂ Keeps (kept root) (reduce parsed).iter) ↔
      ∀ root ∈ document, List.Forall₂ ReadAs (kept root) (kept parsed) := by
    refine forall₂_congr fun root _ => ?_
    rw [iter_reduce, List.forall₂_map_right_iff]
    constructor
    · exact List.Forall₂.imp fun _ _ => keeps_reduce.mp
    · exact List.Forall₂.imp fun _ _ => keeps_reduce.mpr
  constructor
  · intro h
    exact ⟨hsilent.mp h.silent, hkeeps.mp h.keeps⟩
  · intro h
    refine ⟨?_, hsilent.mpr h.1, hkeeps.mpr h.2⟩
    rw [iter_reduce, List.forall_mem_map]
    intro element hmem
    rw [isForeign_reduce, attrib_reduce]
    refine ⟨(hkept element hmem).1, ?_⟩
    intro entry hentry
    exact (List.mem_filter.mp hentry).2

/-- A diagram without logic comes out, and is what comes out of itself, exactly if the source
is plain. -/
theorem faithful_iff {lxml : Lxml} {xml : Text}
    (hround : ∀ parsed, lxml.fromstring (encodeUtf8 xml) = some parsed →
      RoundTrips lxml (reduce parsed)) :
    Faithful lxml xml ↔
      ∀ parsed, lxml.fromstring (encodeUtf8 xml) = some parsed → isForeign parsed = false →
        Plain (lxml.document xml) parsed := by
  have hwritten : ∀ root, isForeign root = false → diagramOnly root = some (reduce root) := by
    intro root hroot
    unfold diagramOnly
    rw [hroot]
    rfl
  constructor
  · intro h parsed hparsed hroot
    obtain ⟨hreduced, hfixed⟩ := h parsed (reduce parsed) hparsed (hwritten parsed hroot)
    obtain ⟨hlogic, hread⟩ := (reduced_iff hroot).mp hreduced
    refine ⟨hlogic, ?_, hread⟩
    rw [← closed_reduce_both.1]
    by_contra hopen
    rw [Bool.not_eq_true] at hopen
    unfold diagramOnlyBpmnXml at hfixed
    rw [(hround parsed hparsed).refuses hopen] at hfixed
    cases hfixed
  · intro h parsed root' hparsed hdiagram
    unfold diagramOnly at hdiagram
    split at hdiagram
    · cases hdiagram
    · rename_i hroot
      rw [Bool.not_eq_true] at hroot
      have hplain := h parsed hparsed hroot
      have hclosed := hplain.resolved
      rw [← closed_reduce_both.1] at hclosed
      rw [← Option.some.inj hdiagram]
      refine ⟨(reduced_iff hroot).mpr ⟨hplain.logic, hplain.read⟩, ?_⟩
      unfold diagramOnlyBpmnXml
      rw [(hround parsed hparsed).reads hclosed, Option.bind_some,
        hwritten (reduce parsed) (by rw [isForeign_reduce, hroot]), reduce_reduce]
      rfl

/-! ### Examples -/

def bpmnName (localName : String) : Name :=
  ⟨some "http://www.omg.org/spec/BPMN/20100524/MODEL".toList, localName.toList⟩

/-- An order with one script task, of which the script has the children. -/
def orderDiagram (children : List (Element × Text)) : Element :=
  .element (bpmnName "definitions") [] []
    [(.element (bpmnName "scriptTask")
      [(⟨none, "id".toList⟩, ⟨"add".toList, []⟩)] []
      [(.element (bpmnName "incoming") [] "Flow_1".toList [], []),
        (.element ⟨some "http://spiffworkflow.org/bpmn/schema/1.0/core".toList,
          "preScript".toList⟩ [] "x = 1".toList [], []),
        (.element (bpmnName "script") [] "total = 3".toList children, [])], [])]

/-- Its text, with what stands in the script after its own text. -/
def orderXml (inner : String) : Text :=
  ("<definitions xmlns=\"http://www.omg.org/spec/BPMN/20100524/MODEL\"" ++
    " xmlns:spiff=\"http://spiffworkflow.org/bpmn/schema/1.0/core\"><scriptTask id=\"add\">" ++
    "<incoming>Flow_1</incoming><spiff:preScript>x = 1</spiff:preScript><script>total = 3" ++
    inner ++ "</script></scriptTask></definitions>").toList

/-- What is written for it. -/
def diagramXml (inner : String) : Text :=
  ("<definitions xmlns=\"http://www.omg.org/spec/BPMN/20100524/MODEL\"><scriptTask id=\"add\">" ++
    "<incoming>Flow_1</incoming><script>" ++ inner ++ "</script></scriptTask></definitions>").toList

/-- The parser and the writer on the two texts, which declare no encoding. -/
def orderLxml (inner : String) (children : List (Element × Text)) : Lxml where
  decode := decodeUtf8
  document xml :=
    if xml = orderXml inner then some (orderDiagram children)
    else if xml = diagramXml inner then some (reduce (orderDiagram children))
    else none
  tostring _ := diagramXml inner

theorem document_orderXml (inner : String) (children : List (Element × Text)) :
    (orderLxml inner children).document (orderXml inner) = some (orderDiagram children) := by
  unfold orderLxml
  dsimp only
  rw [if_pos rfl]

theorem fromstring_encodeUtf8 (inner : String) (children : List (Element × Text)) (xml : Text) :
    (orderLxml inner children).fromstring (encodeUtf8 xml) =
      (orderLxml inner children).document xml := by
  unfold Lxml.fromstring
  show (decodeUtf8 (encodeUtf8 xml)).bind _ = _
  rw [decodeUtf8_encodeUtf8, Option.bind_some]

theorem fromstring_orderXml (inner : String) (children : List (Element × Text)) :
    (orderLxml inner children).fromstring (encodeUtf8 (orderXml inner)) =
      some (orderDiagram children) := by
  rw [fromstring_encodeUtf8, document_orderXml]

theorem fromstring_diagramXml {inner : String} (children : List (Element × Text))
    (h : diagramXml inner ≠ orderXml inner) :
    (orderLxml inner children).fromstring (encodeUtf8 (diagramXml inner)) =
      some (reduce (orderDiagram children)) := by
  rw [fromstring_encodeUtf8]
  unfold orderLxml
  dsimp only
  rw [if_neg h, if_pos rfl]

theorem tostring_order (inner : String) (children : List (Element × Text)) (element : Element) :
    (orderLxml inner children).tostring element = diagramXml inner := rfl

/-- A script of plain text is emptied, and nothing else is lost. -/
theorem faithful_plain_script : Faithful (orderLxml "" []) (orderXml "") := by
  have hparse := fromstring_orderXml "" []
  have hread := fromstring_diagramXml [] (by decide +kernel : diagramXml "" ≠ orderXml "")
  refine (faithful_iff ?_).mpr ?_
  · intro parsed hparsed
    rw [hparse] at hparsed
    rw [← Option.some.inj hparsed]
    constructor
    · intro _
      rw [tostring_order]
      exact hread
    · intro hopen
      exact absurd hopen (by decide)
  · intro parsed hparsed _
    rw [hparse] at hparsed
    rw [← Option.some.inj hparsed, document_orderXml]
    refine ⟨by decide, by decide, ?_⟩
    intro root hroot
    rw [← Option.some.inj hroot, readAs_self]
    intro element hmem _ child hchild hforeign
    revert hforeign child
    revert element
    decide

/-- An element in a script and the text behind it stay. -/
theorem mixed_script_leaks :
    ¬ Faithful (orderLxml "<documentation>key = 7</documentation>pay(key)"
        [(.element (bpmnName "documentation") [] "key = 7".toList [], "pay(key)".toList)])
      (orderXml "<documentation>key = 7</documentation>pay(key)") := by
  intro h
  obtain ⟨hreduced, -⟩ := h _ _ (fromstring_orderXml _ _) rfl
  have hsilent := hreduced.silent
  revert hsilent
  decide

end M8flow.Workflow.DiagramXml
