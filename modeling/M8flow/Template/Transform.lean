import M8flow.Catalog.Identifiers
import M8flow.Lib.Dict
import M8flow.Lib.Replace

/-!
# Renaming in the files of a template

`_transform_bpmn_content` and `_transform_dmn_content`: the processes or decisions of a
file get new ids, by a substitution on its text, and then some of the references to them
are replaced.

- `greedy`: the part `[^>]*` of the two patterns, which takes as much as it can.
- `substitute`: `re.sub` for a pattern that ends with a quoted id.
- `transformBpmn` and `transformDmn` on texts, `transformBpmnContent` and
  `transformDmnContent` on the bytes of a file.
-/

namespace M8flow.Template

open M8flow.Lib

/-! ## The patterns -/

/-- What a pattern matches: its first group, and the id. -/
structure IdMatch where
  before : Text
  oldId : Text
  deriving Repr, DecidableEq

/-- `([^"]+)(")`, at the front of a text. -/
def quotedId (s : Text) : Option Text :=
  let value := s.takeWhile (· ≠ '"')
  if value = [] ∨ value.length = s.length then none else some value

/-- `id="` and then the id. -/
def idAttribute (s : Text) : Option IdMatch :=
  if "id=\"".toList.isPrefixOf s then
    (quotedId (s.drop 4)).map fun oldId => { before := "id=\"".toList, oldId }
  else none

/-- `\s+id="` and then the id; no more than the run of spaces can come before `id`. -/
def spacedIdAttribute (s : Text) : Option IdMatch :=
  let spaces := s.takeWhile Text.isSpace
  if spaces = [] then none
  else
    (idAttribute (s.dropWhile Text.isSpace)).map fun found =>
      { found with before := spaces ++ found.before }

/-- `[^>]*` and then the rest of the pattern: as far on as the rest matches. -/
def greedy (rest : Text → Option IdMatch) : Text → Option IdMatch
  | [] => rest []
  | c :: s =>
      if c = '>' then rest (c :: s)
      else
        match greedy rest s with
        | some found => some { found with before := c :: found.before }
        | none => rest (c :: s)

/-- `(<bpmn:process[^>]*\s+id=")([^"]+)(")`. -/
def processId (s : Text) : Option IdMatch :=
  let opening := "<bpmn:process".toList
  if opening.isPrefixOf s then
    (greedy spacedIdAttribute (s.drop opening.length)).map fun found =>
      { found with before := opening ++ found.before }
  else none

/-- `(<decision\s[^>]*id=")([^"]+)(")`. -/
def decisionId (s : Text) : Option IdMatch :=
  let opening := "<decision".toList
  if opening.isPrefixOf s then
    match s.drop opening.length with
    | [] => none
    | c :: after =>
        if Text.isSpace c then
          (greedy idAttribute after).map fun found =>
            { found with before := opening ++ c :: found.before }
        else none
  else none

/-! ## The substitution -/

/-- The length of what a pattern matches, with the closing quote. -/
def IdMatch.length (found : IdMatch) : Nat := found.before.length + found.oldId.length + 1

/-- `pattern.sub` from the left: `count` matches lie behind, and `skip` characters of the
last one are still to be passed over.  The answer is the text and the renamings. -/
def substituteFrom (pattern : Text → Option IdMatch) (newId : Nat → Text) :
    Nat → Nat → Text → Text × List (Text × Text)
  | _, _, [] => ([], [])
  | count, skip + 1, _ :: s => substituteFrom pattern newId count skip s
  | count, 0, c :: s =>
      match pattern (c :: s) with
      | some found =>
          let rest := substituteFrom pattern newId (count + 1) (found.length - 1) s
          (found.before ++ newId count ++ '"' :: rest.1, (found.oldId, newId count) :: rest.2)
      | none =>
          let rest := substituteFrom pattern newId count 0 s
          (c :: rest.1, rest.2)

def substitute (pattern : Text → Option IdMatch) (newId : Nat → Text) (s : Text) :
    Text × List (Text × Text) :=
  substituteFrom pattern newId 0 0 s

/-- The new id of the definition of a number in its file. -/
def numberedId (base : Text) (count : Nat) : Text :=
  if count = 0 then base else base ++ '_' :: Text.ofNat count

/-- `process_model_id.replace("-", "_")`. -/
def underscored (processModelId : Text) : Text :=
  processModelId.map fun c => if c = '-' then '_' else c

/-- `map[old] = new` for each renaming, in turn. -/
def renamings (pairs : List (Text × Text)) : Dict Text Text :=
  pairs.foldl (fun map pair => map.set pair.1 pair.2) Dict.empty

/-- The replacement of one text for each renaming, in turn. -/
def replaceEach (around : Text → Text) (map : Dict Text Text) (s : Text) : Text :=
  map.entries.foldl (fun s pair => Text.replace (around pair.1) (around pair.2) s) s

/-- `name="value"`. -/
def attributeText (name : String) (value : Text) : Text :=
  name.toList ++ '=' :: '"' :: value ++ ['"']

/-- `<spiffworkflow:calledDecisionId>id</spiffworkflow:calledDecisionId>`. -/
def calledDecisionText (id : Text) : Text :=
  "<spiffworkflow:calledDecisionId>".toList ++ id ++ "</spiffworkflow:calledDecisionId>".toList

/-- The first new process id of a file. -/
def processBase (processModelId fuzz : Text) : Text :=
  "Process_".toList ++ underscored processModelId ++ '_' :: fuzz

/-- The first new decision id of a file. -/
def decisionBase (processModelId fuzz : Text) : Text :=
  "Decision_".toList ++ underscored processModelId ++ '_' :: fuzz

/-- The text of a BPMN file, with the renamings of its processes. -/
def transformBpmn (processModelId fuzz : Text) (decisionIdMap : Dict Text Text) (s : Text) :
    Text × List (Text × Text) :=
  let renamed := substitute processId (numberedId (processBase processModelId fuzz)) s
  (replaceEach calledDecisionText decisionIdMap
    (replaceEach (attributeText "processRef") (renamings renamed.2) renamed.1), renamed.2)

/-- The text of a DMN file, with the renamings of its decisions. -/
def transformDmn (processModelId fuzz : Text) (s : Text) : Text × List (Text × Text) :=
  let renamed := substitute decisionId (numberedId (decisionBase processModelId fuzz)) s
  (replaceEach (attributeText "dmnElementRef") (renamings renamed.2) renamed.1, renamed.2)

/-- `_transform_bpmn_content`: the new bytes and the first new process id. -/
def transformBpmnContent (processModelId fuzz : Text) (decisionIdMap : Dict Text Text)
    (content : Lib.Bytes) : Lib.Bytes × Option Text :=
  match Catalog.decodeUtf8 content with
  | none => (content, none)
  | some s =>
      let transformed := transformBpmn processModelId fuzz decisionIdMap s
      (Catalog.encodeUtf8 transformed.1, (transformed.2.head?).map Prod.snd)

/-- `_transform_dmn_content`: the new bytes and the renamings. -/
def transformDmnContent (processModelId fuzz : Text) (content : Lib.Bytes) :
    Lib.Bytes × Dict Text Text :=
  match Catalog.decodeUtf8 content with
  | none => (content, Dict.empty)
  | some s =>
      let transformed := transformDmn processModelId fuzz s
      (Catalog.encodeUtf8 transformed.1, renamings transformed.2)

end M8flow.Template
