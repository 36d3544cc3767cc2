import M8flow.Errors
import M8flow.Lib.Casing
import M8flow.Lib.Digits

/-!
# What a BPMN text may contain

`catalog._reject_unsupported_constructs`: before a diagram is imported it is parsed,
and refused where the runtime would not run it as drawn.  The parser is a parameter
of the catalog; this module is about the element tree that it returns.
-/

namespace M8flow.Catalog

open M8flow.Lib

/-- What a catalog operation raises. -/
inductive Raised where
  | api (e : ApiError)
  | osError
  | valueError
  deriving Repr, DecidableEq

/-! ## Elements -/

/-- An element; comments and processing instructions have no tag. -/
inductive XmlElement where
  | mk (tag : Option Text) (text : Option Text) (attrib : List (Text × Text))
      (children : List XmlElement)

namespace XmlElement

def tag : XmlElement → Option Text
  | mk tag _ _ _ => tag

def text : XmlElement → Option Text
  | mk _ text _ _ => text

def attrib : XmlElement → List (Text × Text)
  | mk _ _ attrib _ => attrib

def children : XmlElement → List XmlElement
  | mk _ _ _ children => children

/-- `element.get(name)`. -/
def get? (element : XmlElement) (name : String) : Option Text := element.attrib.lookup name.toList

mutual

/-- `element.iter()`: the element and everything below it, in document order. -/
def iter : XmlElement → List XmlElement
  | mk tag text attrib children => mk tag text attrib children :: iterAll children

def iterAll : List XmlElement → List XmlElement
  | [] => []
  | child :: rest => iter child ++ iterAll rest

end

/-- `_xml_local_name(element.tag)`. -/
def localName (element : XmlElement) : Text :=
  (element.tag.map (Text.lastPart '\x7d')).getD []

/-- The element's text, stripped. -/
def strippedText (element : XmlElement) : Text := (element.text.map Text.strip).getD []

/-- The last child with the local name, among those with a tag. -/
def lastChild (element : XmlElement) (name : String) : Option XmlElement :=
  (element.children.filter fun child => child.tag.isSome && child.localName = name.toList).getLast?

end XmlElement

/-- What the parser makes of a text: a root, or one of the two errors that it raises. -/
inductive XmlParse where
  | root (element : XmlElement)
  | parseError
  | forbidden

/-! ## Multi-instance activities -/

/-- `_xml_boolean_is_true`. -/
def xmlBooleanIsTrue (casing : Casing) (value : Option Text) : Bool :=
  value.any fun value => casing.lower value.strip ∈ ["true".toList, "1".toList]

/-- `_BPMN_DATA_REFERENCE_RE` matches the whole text. -/
def isDataReference : Text → Bool
  | [] => false
  | c :: rest =>
      let letter := fun c : Char => ('a' ≤ c && c ≤ 'z') || ('A' ≤ c && c ≤ 'Z') || c = '_'
      letter c && rest.all fun c => letter c || ('0' ≤ c && c ≤ '9') || c = '.' || c = '-'

def unsupportedBpmn (message : String) : Raised := .api (.of "unsupported_bpmn" message 400)

def invalidProcessModel (message : String) : Raised :=
  .api (.of "invalid_process_model" message 400)

/-- A text of digits with an optional sign is an integer below zero; `int` refuses one that
is too long. -/
def isNegativeInteger (s : Text) : Except Raised Bool :=
  let digits := if ['+'].isPrefixOf s || ['-'].isPrefixOf s then s.drop 1 else s
  if digits ≠ [] ∧ digits.all Text.isDecimal then
    match Text.intOfDigits digits with
    | none => .error .valueError
    | some value => .ok (['-'].isPrefixOf s && value ≠ 0)
  else .ok false

/-- The item has an id that is a data reference, if it is there. -/
def checkDataItem (characteristics : XmlElement) (itemTag : String) : Except Raised Unit :=
  match characteristics.lastChild itemTag with
  | none => .ok ()
  | some item =>
      if isDataReference ((item.get? "id").getD []).strip then .ok ()
      else
        .error (invalidProcessModel
          ("Multi-instance " ++ itemTag ++ " must include a non-empty valid BPMN id"))

/-- The loop body of `_validate_multi_instance_features`. -/
def validateCharacteristics (casing : Casing) (characteristics : XmlElement) :
    Except Raised Unit := do
  let isSequential := xmlBooleanIsTrue casing (characteristics.get? "isSequential")
  if !isSequential && (characteristics.lastChild "completionCondition").isSome then
    throw (unsupportedBpmn
      "Completion conditions on parallel multi-instance activities are not supported")
  let inputReference := characteristics.lastChild "loopDataInputRef"
  if inputReference.any fun reference => !isDataReference reference.strippedText then
    throw (unsupportedBpmn
      "loopDataInputRef must be a collection variable identifier; empty references and expressions are not supported")
  let cardinality := ((characteristics.lastChild "loopCardinality").map
    XmlElement.strippedText).getD []
  if ← isNegativeInteger cardinality then
    throw (invalidProcessModel "Multi-instance loopCardinality must be zero or a positive integer")
  let outputReference := characteristics.lastChild "loopDataOutputRef"
  if outputReference.any fun reference => !isDataReference reference.strippedText then
    throw (invalidProcessModel
      "loopDataOutputRef must be a non-empty output collection variable identifier")
  checkDataItem characteristics "inputDataItem"
  checkDataItem characteristics "outputDataItem"
  let hasOutputReference := outputReference.any fun reference => reference.strippedText ≠ []
  if hasOutputReference ≠ (characteristics.lastChild "outputDataItem").isSome then
    throw (invalidProcessModel
      "A multi-instance output mapping must define both loopDataOutputRef and outputDataItem")

/-- `_validate_multi_instance_features`. -/
def validateMultiInstanceFeatures (casing : Casing) (root : XmlElement) : Except Raised Unit :=
  (root.iter.filter fun element =>
    element.localName = "multiInstanceLoopCharacteristics".toList).forM
      (validateCharacteristics casing)

/-! ## Event subprocesses and other constructs -/

/-- `_event_subprocesses_supported`. -/
def eventSubprocessesSupported (casing : Casing) (root : XmlElement) : Bool :=
  root.iter.all fun sub =>
    if sub.localName = "subProcess".toList ∧
        xmlBooleanIsTrue casing (sub.get? "triggeredByEvent") then
      let starts := sub.children.filter fun child => child.localName = "startEvent".toList
      starts ≠ [] && starts.all fun start =>
        !xmlBooleanIsTrue casing (some ((start.get? "isInterrupting").getD "true".toList)) &&
          start.children.any fun definition =>
            definition.localName = "timerEventDefinition".toList
    else true

/-- `UNSUPPORTED_CONSTRUCTS`. -/
def unsupportedConstructs : List Text :=
  ["messageEventDefinition".toList, "correlationKey".toList, "correlationProperty".toList,
    "compensateEventDefinition".toList]

/-- `_reject_unsupported_constructs`, from what the parser made of the text. -/
def rejectUnsupportedConstructs (casing : Casing) (parsed : XmlParse) : Except Raised Unit :=
  match parsed with
  | .parseError => .error (invalidProcessModel "BPMN XML is malformed")
  | .forbidden => .error .valueError
  | .root root => do
      validateMultiInstanceFeatures casing root
      if !eventSubprocessesSupported casing root then
        throw (unsupportedBpmn "Only non-interrupting timer event subprocesses are supported")
      match root.iter.find? fun element => element.localName ∈ unsupportedConstructs with
      | some element =>
          throw (unsupportedBpmn
            ("Unsupported BPMN construct: " ++ String.ofList element.localName))
      | none => pure ()

/-! ## Decisions -/

/-- `_called_decision_ids`. -/
def calledDecisionIds (parsed : XmlParse) : List Text :=
  match parsed with
  | .root root =>
      (root.iter.filter fun element => element.localName = "calledDecisionId".toList).map
        XmlElement.strippedText
  | _ => []

/-- `_dmn_decision_id`. -/
def dmnDecisionId (parsed : XmlParse) : Option Text :=
  match parsed with
  | .root root =>
      (root.children.find? fun child => child.localName = "decision".toList).bind fun decision =>
        decision.get? "id"
  | _ => none

end M8flow.Catalog
