import Antenna.EscapeCore

/-! The router's lightweight Turtle scanning: directives, types and properties. -/

namespace LeanAntenna

open Text

def spNs : Text := "http://spinrdf.org/sp#".toList

def antennaNs : Text := "http://resonator.network/v2/antenna#".toList

def carrierNs : Text := "http://resonator.network/v2/carrier#".toList

def designNs : Text := "http://resonator.network/v2/design#".toList

/-- `TURTLE_PREFIXES`, which the store puts in front of every text it loads. -/
def turtlePrefixes : List (Text × Text) :=
  [("carrier".toList, carrierNs), ("antenna".toList, antennaNs), ("design".toList, designNs),
    ("sp".toList, spNs), ("spin".toList, "http://spinrdf.org/spin#".toList),
    ("xsd".toList, "http://www.w3.org/2001/XMLSchema#".toList)]

/-- The rest of a directive's line behind its closing dot. -/
def directiveEnd (inIri : Bool) : Text → Option Text
  | [] => none
  | '<' :: rest => directiveEnd true rest
  | '>' :: rest => directiveEnd false rest
  | c :: rest => if c = '.' ∧ inIri = false then some rest else directiveEnd inIri rest

/-- Every round of the source's `while` drops at least the closing dot, so the length of the line
bounds the rounds. -/
def stripDirectives : Nat → Text → Text
  | 0, line => line
  | rounds + 1, line =>
      if line.head? = some '@' then
        match directiveEnd false line with
        | some rest => stripDirectives rounds (trimStart rest)
        | none => []
      else line

def stripLeadingDirectives (line : Text) : Text :=
  stripDirectives line.length (trimStart line)

def typeNamespace (label : Text) : Option Text :=
  if label = "sp".toList then some spNs
  else if label = "spin".toList then some "http://spinrdf.org/spin#".toList
  else if label = "carrier".toList then some carrierNs
  else if label = "antenna".toList then some antennaNs
  else if label = "design".toList then some designNs
  else if label = "rdf".toList then some "http://www.w3.org/1999/02/22-rdf-syntax-ns#".toList
  else none

/-- The class that stands at the front of `text`. -/
def classAt (text : Text) : Option Text :=
  if text.head? = some '<' then
    (find text ['>']).map fun parts => parts.1.drop 1
  else
    (splitOnce ':' (trim (firstPiece [' ', ';', '.'] text))).bind fun parts =>
      (typeNamespace parts.1).map (· ++ parts.2)

def extractType (line : Text) : Option Text :=
  (find (trim line) " a ".toList).bind fun parts => classAt (trimStart parts.2)

/-- Where the unescaped quote stands that closes a literal, 0 if there is none. The source counts
bytes; it only asks whether the count is positive and cuts the text there. -/
def literalEnd (escaped : Bool) (position : Nat) : Text → Nat
  | [] => 0
  | c :: rest =>
      if escaped then literalEnd false (position + 1) rest
      else if c = '\\' then literalEnd true (position + 1) rest
      else if c = '"' then position
      else literalEnd false (position + 1) rest

/-- The value that stands at the front of `text`, still escaped. -/
def valueAt (text : Text) : Option Text :=
  if text.head? = some '"' then
    let inner := text.drop 1
    let last := literalEnd false 0 inner
    if 0 < last then some (inner.take last) else none
  else
    let value := trim (firstPiece [' ', ';', '.'] text)
    if value = [] then none else some value

def extractProperty (line prop : Text) : Option Text :=
  (find line (prop ++ [' '])).bind fun parts => valueAt (trim parts.2)

end LeanAntenna
