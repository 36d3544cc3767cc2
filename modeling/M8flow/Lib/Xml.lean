import M8flow.Lib.Text

/-!
# XML trees

The trees that `ElementTree` and `lxml` build.  The text of an element is the text before its
first child, and every child comes with its tail, the text up to the next one.  A child is an
element, or a reference to an entity that was not resolved; comments and processing
instructions are not kept, as the parsers here drop them.  The values of attributes are of a
type of their own.
-/

namespace M8flow.Lib.Xml

/-- The name of an element or an attribute. -/
structure Name where
  uri : Option Text
  localName : Text
  deriving Repr, DecidableEq

/-- An element, or a reference to an entity. -/
inductive Node (ν : Type) where
  | element (name : Name) (attrib : List (Name × ν)) (text : Text)
      (children : List (Node ν × Text))
  | entity (name : Text)

namespace Node

variable {ν : Type}

/-- Induction on a node and on the children of one. -/
theorem induct {P : Node ν → Prop} {Q : List (Node ν × Text) → Prop}
    (element : ∀ name attrib text children, Q children → P (.element name attrib text children))
    (entity : ∀ name, P (.entity name)) (nil : Q [])
    (cons : ∀ child tail rest, P child → Q rest → Q ((child, tail) :: rest)) :
    (∀ node, P node) ∧ ∀ children, Q children := by
  have hnode : ∀ node, P node := fun node =>
    @Node.rec ν P Q (fun child => P child.1) element entity nil
      (fun child rest hchild hrest => cons child.1 child.2 rest hchild hrest)
      (fun _ _ hchild => hchild) node
  refine ⟨hnode, ?_⟩
  intro children
  induction children with
  | nil => exact nil
  | cons child rest ih => exact cons child.1 child.2 rest (hnode child.1) ih

def isElement : Node ν → Bool
  | element _ _ _ _ => true
  | entity _ => false

/-- The name of an element. -/
def name? : Node ν → Option Name
  | element name _ _ _ => some name
  | entity _ => none

def attrib : Node ν → List (Name × ν)
  | element _ attrib _ _ => attrib
  | entity _ => []

/-- `element.text or ""`. -/
def text : Node ν → Text
  | element _ _ text _ => text
  | entity _ => []

def children : Node ν → List (Node ν × Text)
  | element _ _ _ children => children
  | entity _ => []

/-- The local name of an element, and nothing elsewhere. -/
def localName : Node ν → Text
  | element name _ _ _ => name.localName
  | entity _ => []

/-- `element.attrib.get(name)`, of a name without a namespace. -/
def get? (node : Node ν) (name : String) : Option ν := node.attrib.lookup ⟨none, name.toList⟩

/-- `for child in element`: the children that are elements. -/
def elements (node : Node ν) : List (Node ν) := (node.children.map Prod.fst).filter isElement

/-- The children with the local name, in document order. -/
def childrenNamed (node : Node ν) (localName : String) : List (Node ν) :=
  node.elements.filter fun child => child.localName = localName.toList

mutual

/-- `element.iter()`: the element and the elements below it, in document order. -/
def iter : Node ν → List (Node ν)
  | element name attrib text children => element name attrib text children :: iterAll children
  | entity _ => []

def iterAll : List (Node ν × Text) → List (Node ν)
  | [] => []
  | (child, _) :: rest => iter child ++ iterAll rest

end

mutual

/-- `"".join(element.itertext())`. -/
def itertext : Node ν → Text
  | element _ _ text children => text ++ itertextAll children
  | entity _ => []

def itertextAll : List (Node ν × Text) → Text
  | [] => []
  | (child, tail) :: rest => itertext child ++ tail ++ itertextAll rest

end

end Node

end M8flow.Lib.Xml
