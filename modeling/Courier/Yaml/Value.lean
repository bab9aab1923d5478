import Courier.Decimal.Literal
import Courier.Yaml.Token

/-!
# Values

The value of a YAML document.  Collections come from the structure of the tokens; a plain scalar is
what its text looks like, and any other scalar is a text.  An alias stands for the value of its
anchor.

`documents` gives the values of all documents of a text, or nothing if the text is not well-formed.
-/

namespace Courier.Yaml

/-- A YAML value. -/
inductive Value
  | null
  | bool (b : Bool)
  | whole (n : Int)
  /-- A number that is not whole, as it was written. -/
  | real (text : String)
  | text (s : String)
  | list (items : List Value)
  | mapping (entries : List (Value × Value))
  /-- There is no value: a scalar is not what its tag says, or an alias stands within its own
  anchor. -/
  | missing
deriving BEq, Repr, Inhabited

/-! ## Scalars -/

/-- The spellings of numbers that are not finite. -/
def notFinite : List String :=
  [".inf", ".Inf", ".INF", "+.inf", "+.Inf", "+.INF", "-.inf", "-.Inf", "-.INF", ".nan", ".NaN",
    ".NAN"]

/-- Whether a text is a number that is not whole; words without a digit are not. -/
def isReal (text : String) : Bool :=
  notFinite.contains text ||
    (text.toList.any Decimal.isDigit && (Decimal.setting? text.toList).isSome)

/-- A whole number: decimal, or in base sixteen or eight behind a mark. -/
def wholeOf? (text : String) : Option Int :=
  let decimal := Decimal.whole? text.toList
  match text.toList with
  | '0' :: 'x' :: ds => Decimal.wholeInBase? 16 ds <|> decimal
  | '0' :: 'o' :: ds => Decimal.wholeInBase? 8 ds <|> decimal
  | '+' :: ds => Decimal.whole? ds <|> decimal
  | _ => decimal

/-- A word for yes or no. -/
def truthOf? (text : String) : Option Bool :=
  match text with
  | "true" | "True" | "TRUE" => some true
  | "false" | "False" | "FALSE" => some false
  | _ => none

/-- The value of a plain scalar without a tag. -/
def Value.ofPlain (text : String) : Value :=
  match wholeOf? text, truthOf? text with
  | some n, _ => .whole n
  | none, some b => .bool b
  | none, none =>
    if text == "" || text == "~" || text == "null" then .null
    else if isReal text then .real text
    else .text text

/-- The value of a plain scalar with a tag of the core schema. -/
def Value.ofTagged (suffix text : String) : Value :=
  match suffix with
  | "bool" => ((truthOf? text).map Value.bool).getD .missing
  | "int" => ((Decimal.whole? text.toList).map Value.whole).getD .missing
  | "float" => if isReal text then .real text else .missing
  | "null" => if text == "~" || text == "null" then .null else .missing
  | _ => .text text

/-- The namespace of the core schema. -/
def coreNamespace : String := "tag:yaml.org,2002:"

/-- What stands in front of a node. -/
structure Properties where
  anchor : Option String := none
  /-- The namespace and the name of its tag. -/
  tag : Option (String × String) := none
deriving Inhabited

/-- The value of a scalar. -/
def scalarValue (p : Properties) (plain : Bool) (text : String) : Value :=
  if plain then
    match p.tag with
    | none => .ofPlain text
    | some (space, name) => if space == coreNamespace then .ofTagged name text else .text text
  else .text text

/-! ## Nodes -/

/-- The tokens that are left, with what the anchors and tag handles of the document stand for. -/
structure Source where
  tokens : List Token
  /-- The names of the anchors so far, last one first.  The number of an anchor is how many there
  were before it. -/
  anchors : List String := []
  /-- The values of the anchors whose nodes are complete, by number. -/
  values : List (Nat × Value) := []
  handles : List (String × String) := []
deriving Inhabited

namespace Source

/-- The next token. -/
def next (s : Source) : Option Token := s.tokens.head?

/-- Go past the next token. -/
def skip (s : Source) : Source := { s with tokens := s.tokens.drop 1 }

/-- Whether the next token is one of these, or there is none. -/
def isAt (s : Source) (ts : List Token) : Bool :=
  match s.next with
  | none => true
  | some t => ts.contains t

/-- Begin the node of an anchor. -/
def beginAnchor (s : Source) (anchor : Option String) : Source :=
  match anchor with
  | none => s
  | some name => { s with anchors := name :: s.anchors }

/-- The node of an anchor is complete. -/
def endAnchor (s : Source) (anchor : Option String) (number : Nat) (v : Value) : Source :=
  if anchor.isSome then { s with values := (number, v) :: s.values } else s

/-- The value that an alias stands for, if there is its anchor.  Of anchors with one name it is the
one that began last. -/
def valueOf? (s : Source) (name : String) : Option Value :=
  let earlier := s.anchors.dropWhile fun a => a != name
  if earlier.isEmpty then none
  else
    let number := earlier.length - 1
    some (((s.values.find? fun v => v.1 == number).map (·.2)).getD .missing)

/-- The namespace that a tag handle stands for. -/
def space? (s : Source) (handle : String) : Option String :=
  match s.handles.find? fun h => h.1 == handle with
  | some h => some h.2
  | none => if handle == "!!" then some coreNamespace
    else if handle == "" || handle == "!" then some handle else none

/-- The tag of a handle and a suffix. -/
def resolveTag (s : Source) (handle suffix : String) : Option (String × String) :=
  (s.space? handle).map fun space => (space, suffix)

/-- An anchor and a tag, in either order. -/
def properties (s : Source) : Option (Source × Properties) :=
  match s.tokens with
  | .anchor a :: .tag h x :: rest => do
    let tag ← s.resolveTag h x
    return ({ s with tokens := rest }, { anchor := some a, tag := some tag })
  | .tag h x :: .anchor a :: rest => do
    let tag ← s.resolveTag h x
    return ({ s with tokens := rest }, { anchor := some a, tag := some tag })
  | .anchor a :: rest => some ({ s with tokens := rest }, { anchor := some a })
  | .tag h x :: rest => do
    let tag ← s.resolveTag h x
    return ({ s with tokens := rest }, { tag := some tag })
  | _ => some (s, {})

end Source

/-- Put an entry behind the others; a key may come only once. -/
def addEntry (entries : List (Value × Value)) (k v : Value) : Option (List (Value × Value)) :=
  if entries.any fun e => e.1 == k then none else some (entries ++ [(k, v)])

/-- Add the entries of a row of keys and values.  Where a key is missing the next value takes its
place, and a last key without a value is left out. -/
def addNodes (entries : List (Value × Value)) (key : Option Value) :
    List Value → Option (List (Value × Value))
  | [] => some entries
  | v :: rest =>
    match key with
    | none => addNodes entries (if v == Value.missing then none else some v) rest
    | some k =>
      match addEntry entries k v with
      | none => none
      | some entries => addNodes entries none rest

/-- The mapping of a row of keys and values. -/
def mappingOf? (nodes : List Value) : Option Value := (addNodes [] none nodes).map Value.mapping

mutual

/-- A node.  `inBlock` says whether block collections may begin here, and `dashes` whether a
sequence may that is not indented. -/
def node (inBlock dashes : Bool) (s : Source) : Nat → Option (Source × Value)
  | 0 => none
  | fuel + 1 =>
    match s.next with
    | some (.alias name) =>
      (s.valueOf? name).map fun v => (s.skip, v)
    | _ =>
      match s.properties with
      | none => none
      | some (s, p) =>
        match content inBlock dashes (s.beginAnchor p.anchor) p fuel with
        | none => none
        | some (after, v) => some (after.endAnchor p.anchor s.anchors.length v, v)

/-- What a node consists of behind its anchor and its tag. -/
def content (inBlock dashes : Bool) (s : Source) (p : Properties) :
    Nat → Option (Source × Value)
  | 0 => none
  | fuel + 1 =>
    let empty :=
      if p.anchor.isSome || p.tag.isSome then some (s, scalarValue p true "") else none
    match s.next with
    | some (.scalar plain text) => some (s.skip, scalarValue p plain text)
    | some .flowSequenceStart => flowItems s.skip true [] fuel
    | some .flowMappingStart => flowEntries s.skip true [] fuel
    | some .blockEntry => if dashes then looseItems s [] fuel else empty
    | some .blockSequenceStart => if inBlock then blockItems s.skip [] fuel else empty
    | some .blockMappingStart => if inBlock then blockEntries s.skip [] fuel else empty
    | _ => empty

/-- A node, or nothing at all in front of one of these tokens. -/
def nodeUnless (ends : List Token) (inBlock dashes : Bool) (s : Source) :
    Nat → Option (Source × Value)
  | 0 => none
  | fuel + 1 => if s.isAt ends then some (s, .null) else node inBlock dashes s fuel

/-- The items of a block sequence. -/
def blockItems (s : Source) (items : List Value) : Nat → Option (Source × Value)
  | 0 => none
  | fuel + 1 =>
    match s.next with
    | some .blockEntry =>
      match nodeUnless [.blockEntry, .blockEnd] true false s.skip fuel with
      | none => none
      | some (s, v) => blockItems s (items ++ [v]) fuel
    | some .blockEnd => some (s.skip, .list items)
    | _ => none

/-- The items of a sequence that is not indented. -/
def looseItems (s : Source) (items : List Value) : Nat → Option (Source × Value)
  | 0 => none
  | fuel + 1 =>
    match s.next with
    | some .blockEntry =>
      match nodeUnless [.blockEntry, .key, .value, .blockEnd] true false s.skip fuel with
      | none => none
      | some (s, v) => looseItems s (items ++ [v]) fuel
    | _ => some (s, .list items)

/-- The entries of a block mapping, as a row of keys and values. -/
def blockEntries (s : Source) (nodes : List Value) : Nat → Option (Source × Value)
  | 0 => none
  | fuel + 1 =>
    let ends : List Token := [.key, .value, .blockEnd]
    let entry (s : Source) (k : Value) : Option (Source × Value) :=
      let value := match s.next with
        | some .value => nodeUnless ends true true s.skip fuel
        | _ => some (s, .null)
      match value with
      | none => none
      | some (s, v) => blockEntries s (nodes ++ [k, v]) fuel
    match s.next with
    | some .key =>
      match nodeUnless ends true true s.skip fuel with
      | none => none
      | some (s, k) => entry s k
    | some .value => entry s .null
    | some .blockEnd => (mappingOf? nodes).map fun v => (s.skip, v)
    | _ => none

/-- A single entry among the items of a bracketed sequence, behind the mark of its key. -/
def flowPair (s : Source) : Nat → Option (Source × Value)
  | 0 => none
  | fuel + 1 =>
    let ends : List Token := [.flowEntry, .flowSequenceEnd]
    match nodeUnless (.value :: ends) false false s fuel with
    | none => none
    | some (s, k) =>
      let value := match s.next with
        | some .value => nodeUnless ends false false s.skip fuel
        | _ => some (s, .null)
      match value with
      | none => none
      | some (s, v) => (mappingOf? [k, v]).map fun m => (s, m)

/-- The items of a bracketed sequence. -/
def flowItems (s : Source) (first : Bool) (items : List Value) : Nat → Option (Source × Value)
  | 0 => none
  | fuel + 1 =>
    let item (s : Source) : Option (Source × Value) :=
      let value := match s.next with
        | some .key => flowPair s.skip fuel
        | _ => node false false s fuel
      match value with
      | none => none
      | some (s, v) => flowItems s false (items ++ [v]) fuel
    match s.next with
    | some .flowSequenceEnd => some (s.skip, .list items)
    | some .flowEntry =>
      if first then none
      else if s.skip.next == some Token.flowSequenceEnd then some (s.skip.skip, .list items)
      else item s.skip
    | _ => if first then item s else none

/-- The entries of a bracketed mapping, as a row of keys and values. -/
def flowEntries (s : Source) (first : Bool) (nodes : List Value) : Nat → Option (Source × Value)
  | 0 => none
  | fuel + 1 =>
    let ends : List Token := [.flowEntry, .flowMappingEnd]
    let value (s : Source) (k : Value) : Option (Source × Value) :=
      let value := match s.next with
        | some .value => nodeUnless ends false false s.skip fuel
        | _ => some (s, .null)
      match value with
      | none => none
      | some (s, v) => flowEntries s false (nodes ++ [k, v]) fuel
    let entry (s : Source) : Option (Source × Value) :=
      match s.next with
      | some .key =>
        match nodeUnless (.value :: ends) false false s.skip fuel with
        | none => none
        | some (s, k) => value s k
      | some .value => value s .null
      | _ =>
        match node false false s fuel with
        | none => none
        | some (s, k) => flowEntries s false (nodes ++ [k, .null]) fuel
    let close (s : Source) : Option (Source × Value) := (mappingOf? nodes).map fun v => (s.skip, v)
    match s.next with
    | some .flowMappingEnd => close s
    | some .flowEntry =>
      if first then none
      else if s.skip.next == some Token.flowMappingEnd then close s.skip
      else entry s.skip
    | _ => if first then entry s else none

end

/-! ## Documents -/

/-- Whether a directive comes next. -/
def isAtDirective (s : Source) : Bool :=
  match s.next with
  | some .versionDirective | some (.tagDirective ..) => true
  | _ => false

/-- The directives in front of a document.  Only the last one gives a meaning to a handle; the
version may be named only once. -/
def directives (s : Source) (versionNamed : Bool) : Nat → Option Source
  | 0 => some s
  | fuel + 1 =>
    match s.next with
    | some .versionDirective =>
      if versionNamed then none else directives { s.skip with handles := [] } true fuel
    | some (.tagDirective handle space) =>
      directives { s.skip with handles := [(handle, space)] } versionNamed fuel
    | _ => some s

/-- Whether a document has no content. -/
def isBare (s : Source) : Bool :=
  isAtDirective s ||
    match s.next with
    | none | some .documentStart | some .documentEnd => true
    | _ => false

/-- The documents of a text.  After the first one, a document needs its mark. -/
def documentsOf (s : Source) (first : Bool) (docs : List Value) : Nat → Option (List Value)
  | 0 => none
  | fuel + 1 =>
    let s : Source := { tokens := s.tokens.dropWhile fun t => t == Token.documentEnd }
    if s.tokens.isEmpty then some docs
    else
      let start :=
        if first && !isAtDirective s && s.next != some Token.documentStart then some s
        else match directives s false (s.tokens.length + 1) with
          | none => none
          | some s => if s.next == some Token.documentStart then some s.skip else none
      match start with
      | none => none
      | some s =>
        let body := if isBare s then some (s, Value.null)
          else node true false s (4 * s.tokens.length + 8)
        match body with
        | none => none
        | some (s, v) =>
          if isAtDirective s then none else documentsOf s false (docs ++ [v]) fuel

/-- The values of the documents of a text. -/
def documents (text : String) : Option (List Value) := do
  let tokens ← Token.scan text.toList
  documentsOf { tokens } true [] (tokens.length + 2)

end Courier.Yaml
