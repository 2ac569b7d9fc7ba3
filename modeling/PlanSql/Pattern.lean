import PlanSql.Letters
import PlanSql.PatternFault

namespace PlanSql

structure PatternFlags where
  /-- Blanks and comments do not count. -/
  spaced : Bool := false
  /-- Small and capital letters are the same. -/
  folded : Bool := false
  unicode : Bool := true

/-- How far a pattern has been read. -/
structure PatternReading where
  rest : List Char
  /-- The number of characters that have been read. -/
  pos : Nat := 0
  flags : PatternFlags := {}
  /-- Where the open groups start, and the flags outside each of them. -/
  groups : List (Nat × PatternFlags) := []
  names : List (List Char × PatternSpan) := []
  /-- Whether a repetition may follow. -/
  repeatable : Bool := false
  /-- The first part that can be read but is not available. -/
  unavailable : Option PatternError := none
  /-- Whether there is a boundary between words of all alphabets. -/
  bounded : Bool := false

abbrev PatternReader := StateT PatternReading (Except PatternError)

/-- What an escape stands for. -/
inductive PatternAtom
  | literal (c : Char)
  | several
  | assertion

namespace Pattern

variable {α : Type}

def peek : PatternReader (Option Char) := return (← get).rest.head?

def position : PatternReader Nat := return (← get).pos

def step : PatternReader Unit := modify fun r =>
  match r.rest with
  | [] => r
  | _ :: s => { r with rest := s, pos := r.pos + 1 }

/-- What follows blanks and comments. -/
def afterBlanks : (comment : Bool) → List Char → List Char
  | _, [] => []
  | true, c :: s => afterBlanks (c != '\n') s
  | false, c :: s =>
    if isBlankChar c then afterBlanks false s
    else if c = '#' then afterBlanks true s
    else c :: s

/-- Skips blanks and comments where they do not count. -/
def skipBlanks : PatternReader Unit := modify fun r =>
  if r.flags.spaced then
    let s := afterBlanks false r.rest
    { r with rest := s, pos := r.pos + (r.rest.length - s.length) }
  else r

/-- Steps to the next character that counts, and tells whether there is one. -/
def advance : PatternReader Bool := do
  step
  skipBlanks
  return (← peek).isSome

/-- Takes a text if it comes next. -/
def take (text : String) : PatternReader Bool := do
  let r ← get
  match dropHead? text.toList r.rest with
  | none => return false
  | some s =>
    set { r with rest := s, pos := r.pos + text.length }
    return true

/-- Takes the first of some texts that comes next. -/
def takeAny : List String → PatternReader Bool
  | [] => return false
  | t :: ts => do if ← take t then return true else takeAny ts

def failAt (start stop : Nat) (f : PatternFault) : PatternReader α := throw ⟨f, ⟨start, stop⟩, none⟩

def failFrom (start : Nat) (f : PatternFault) : PatternReader α := do failAt start (← position) f

def failHere (f : PatternFault) : PatternReader α := do failFrom (← position) f

def failNext (f : PatternFault) : PatternReader α := do
  let p ← position
  failAt p (p + 1) f

/-- Notes that what was read from `start` on is not available. -/
def noteFrom (start : Nat) (f : PatternFault) : PatternReader Unit := modify fun r =>
  { r with unavailable := r.unavailable <|> some ⟨f, ⟨start, r.pos⟩, none⟩ }

def setRepeatable (b : Bool) : PatternReader Unit := modify fun r => { r with repeatable := b }

/-- Steps over decimal digits. -/
def digits : (fuel : Nat) → PatternReader (List Char)
  | 0 => return []
  | fuel + 1 => do
    match ← peek with
    | none => return []
    | some c =>
      if !c.isDigit then return []
      let _ ← advance
      return c :: (← digits fuel)

/-- Steps over white space. -/
def skipWhite : PatternReader Unit := modify fun r =>
  let s := trimLeft r.rest
  { r with rest := s, pos := r.pos + (r.rest.length - s.length) }

/-- Reads a number below `2 ^ 32`; what is wrong with it is told later. -/
def count : PatternReader (Except PatternError Nat) := do
  skipWhite
  let start ← position
  let ds ← digits (← get).rest.length
  let span : PatternSpan := ⟨start, ← position⟩
  skipWhite
  if ds.isEmpty then return .error ⟨.countMissing, span, none⟩
  if readDecimal ds < 2 ^ 32 then return .ok (readDecimal ds)
  return .error ⟨.decimal, span, none⟩

def required (n : Except PatternError Nat) : PatternReader Nat :=
  match n with
  | .ok n => return n
  | .error e => throw e

/-- Makes sure that there is something to repeat. -/
def needRepeatable : PatternReader Unit := do
  if !(← get).repeatable then failHere .repetitionMissing

/-- Reads a repetition with bounds in braces. -/
def counted : PatternReader Unit := do
  let start ← position
  needRepeatable
  if !(← advance) then failFrom start .countUnclosed
  let low ← count
  let mut sound := true
  match ← peek with
  | none => failFrom start .countUnclosed
  | some ',' =>
    if !(← advance) then failFrom start .countUnclosed
    if (← peek) = some '\x7d' then
      let _ ← required low
    else
      let low ← required low
      let high ← required (← count)
      sound := low ≤ high
  | some _ =>
    let _ ← required low
  if (← peek) ≠ some '\x7d' then failFrom start .countUnclosed
  let more ← advance
  if more && (← peek) = some '?' then step
  if !sound then failFrom start .countOrder

/-- Reads `?`, `*` or `+`. -/
def repeated : PatternReader Unit := do
  needRepeatable
  step
  if (← peek) = some '?' then step

def flagChars : List Char := "imsUuRx-".toList

/-- Reads flags up to a colon or the end of the group. -/
def readFlags : (fuel : Nat) → (seen : List (Char × Nat)) → PatternReader (List (Char × Nat))
  | 0, seen => return seen
  | fuel + 1, seen => do
    let p ← position
    match ← peek with
    | none => failHere .flagEnd
    | some c =>
      if c = ':' || c = ')' then
        match seen.getLast? with
        | some ('-', q) => failAt q (q + 1) .flagDangling
        | _ => return seen
      if !flagChars.contains c then failNext .flagUnknown
      match seen.lookup c with
      | some q =>
        let fault := if c = '-' then PatternFault.flagNegatedTwice else .flagTwice
        throw ⟨fault, ⟨p, p + 1⟩, some ⟨q, q + 1⟩⟩
      | none =>
        step
        readFlags fuel (seen ++ [(c, p)])

/-- Whether flags set or clear one of them. -/
def flagState? (items : List (Char × Nat)) (c : Char) : Option Bool :=
  let flags := items.map Prod.fst
  if flags.contains c then some (!(flags.takeWhile (· != c)).contains '-') else none

def withFlags (items : List (Char × Nat)) (f : PatternFlags) : PatternFlags :=
  ⟨(flagState? items 'x').getD f.spaced, (flagState? items 'i').getD f.folded,
    (flagState? items 'u').getD f.unicode⟩

def isNameChar (first : Bool) (c : Char) : Bool :=
  if first then c == '_' || (isLetterOrDigit c && !c.isDigit)
  else c == '_' || c == '.' || c == '[' || c == ']' || isLetterOrDigit c

/-- Reads the characters of a name up to its closing angle. -/
def nameChars : (fuel : Nat) → (first : Bool) → PatternReader (List Char)
  | 0, _ => return []
  | fuel + 1, first => do
    match ← peek with
    | none => return []
    | some '>' => return []
    | some c =>
      if !isNameChar first c then failNext .nameCharacter
      step
      return c :: (← nameChars fuel false)

/-- Reads the name of a group. -/
def groupName : PatternReader Unit := do
  let start ← position
  let name ← nameChars (← get).rest.length true
  let span : PatternSpan := ⟨start, ← position⟩
  if (← peek).isNone then failHere .nameEnd
  step
  if name.isEmpty then failAt start start .nameEmpty
  match (← get).names.lookup name with
  | some earlier => throw ⟨.nameTwice, span, some earlier⟩
  | none => modify fun r => { r with names := (name, span) :: r.names }

def openGroup (start : Nat) (items : List (Char × Nat)) : PatternReader Unit := modify fun r =>
  { r with
    groups := (start, r.flags) :: r.groups
    flags := withFlags items r.flags
    repeatable := false }

/-- Reads the start of a group, or flags for the rest of the one around it. -/
def group : PatternReader Unit := do
  let start ← position
  step
  skipBlanks
  if ← takeAny ["?=", "?!", "?<=", "?<!"] then failFrom start .lookAround
  let inner ← position
  if ← takeAny ["?P<", "?<"] then
    groupName
    openGroup start []
  else if ← take "?" then
    if (← peek).isNone then failAt start (start + 1) .groupUnclosed
    let items ← readFlags ((← get).rest.length + 1) []
    let close ← peek
    step
    if close = some ')' then
      if items.isEmpty then failAt inner inner .repetitionMissing
      modify fun r => { r with flags := withFlags items r.flags, repeatable := false }
    else openGroup start items
  else openGroup start []

def closeGroup : PatternReader Unit := do
  match (← get).groups with
  | [] => failNext .groupUnopened
  | (_, flags) :: groups =>
    step
    modify fun r => { r with groups := groups, flags := flags, repeatable := true }

/-- The character of hexadecimal digits. -/
def hexCharacter (start stop : Nat) (ds : List Char) : PatternReader PatternAtom :=
  match readHex? ds with
  | none => failAt start stop .hexCharacter
  | some n =>
    if h : n.isValidChar then return .literal (Char.ofNatAux n h)
    else failAt start stop .hexCharacter

/-- Reads `width` hexadecimal digits. -/
def hexDigitsOf : (width : Nat) → PatternReader (List Char)
  | 0 => return []
  | width + 1 => do
    match ← peek with
    | none => failHere .escapeEnd
    | some c =>
      if (hexValue? c).isNone then failNext .hexDigit
      let _ ← advance
      return c :: (← hexDigitsOf width)

/-- Reads hexadecimal digits up to a closing brace. -/
def hexBraced (brace : Nat) : (fuel : Nat) → PatternReader (List Char)
  | 0 => return []
  | fuel + 1 => do
    match ← peek with
    | none => failFrom brace .escapeEnd
    | some '\x7d' => return []
    | some c =>
      if (hexValue? c).isNone then failNext .hexDigit
      let _ ← advance
      return c :: (← hexBraced brace fuel)

/-- Reads a character by its number. -/
def hexEscape (width : Nat) : PatternReader PatternAtom := do
  if !(← advance) then failHere .escapeEnd
  let start ← position
  if (← peek) = some '\x7b' then
    let _ ← advance
    let ds ← hexBraced start (← get).rest.length.succ
    let stop ← position
    let _ ← advance
    if ds.isEmpty then failFrom start .hexEmpty
    hexCharacter (start + 1) stop ds
  else
    let ds ← hexDigitsOf width
    hexCharacter start (← position) ds

/-- Steps over the name of a property up to its closing brace. -/
def skipProperty : (fuel : Nat) → PatternReader Unit
  | 0 => return
  | fuel + 1 => do
    match ← peek with
    | none => failHere .escapeEnd
    | some '\x7d' => step
    | some _ =>
      let _ ← advance
      skipProperty fuel

/-- Reads a class by its property. -/
def property (start : Nat) : PatternReader PatternAtom := do
  if !(← advance) then failHere .escapeEnd
  match ← peek with
  | some '\x7b' =>
    let _ ← advance
    skipProperty (← get).rest.length.succ
  | some '\\' => failNext .propertyName
  | _ =>
    let _ ← advance
  noteFrom start .propertyUnavailable
  return .several

def isBoundaryChar (c : Char) : Bool := c.isAlpha || c == '-'

/-- Steps over the name of a boundary. -/
def boundaryName : (fuel : Nat) → PatternReader (List Char)
  | 0 => return []
  | fuel + 1 => do
    match ← peek with
    | none => return []
    | some c =>
      if !isBoundaryChar c then return []
      let _ ← advance
      return c :: (← boundaryName fuel)

/-- Reads the kind of a boundary in braces; other braces are left for a repetition. -/
def boundaryKind (start : Nat) : PatternReader Unit := do
  let before ← get
  if before.rest.head? = some '\x7b' then
    if !(← advance) then failFrom start .boundaryEnd
    let contents ← position
    if !((← peek).any isBoundaryChar) then set before
    else
      let name ← boundaryName (← get).rest.length
      if (← peek) ≠ some '\x7d' then failFrom before.pos .boundaryUnclosed
      let stop ← position
      step
      if String.ofList name ∉ ["start", "end", "start-half", "end-half"] then
        failAt contents stop .boundaryUnknown

/-- Notes a boundary between words. -/
def noteBoundary : PatternReader Unit := modify fun r =>
  { r with bounded := r.bounded || r.flags.unicode }

/-- The characters of escapes with one letter. -/
def letterEscapes : List (Char × Char) :=
  [('a', '\x07'), ('f', '\x0c'), ('t', '\t'), ('n', '\n'), ('r', '\x0d'), ('v', '\x0b')]

/-- ASCII characters that stand for themselves after a backslash. -/
def isEscapable (c : Char) : Bool :=
  c.toNat < 128 && !c.isAlphanum && c != '<' && c != '>'

/-- Reads what follows a backslash. -/
def escape : PatternReader PatternAtom := do
  let start ← position
  step
  match ← peek with
  | none => failFrom start .escapeEnd
  | some c =>
    if c.isDigit then failAt start (start + 2) .backreference
    if c = 'x' then return ← hexEscape 2
    if c = 'u' then return ← hexEscape 4
    if c = 'U' then return ← hexEscape 8
    if c = 'p' || c = 'P' then return ← property start
    step
    if "dswDSW".toList.contains c then
      if (← get).flags.unicode then noteFrom start .classUnavailable
      return .several
    if isEscapable c then return .literal c
    if let some d := letterEscapes.lookup c then return .literal d
    if c = 'A' || c = 'z' then return .assertion
    if c = 'b' then
      boundaryKind start
      noteBoundary
      return .assertion
    if c = 'B' || c = '<' || c = '>' then
      noteBoundary
      return .assertion
    failFrom start .escapeUnknown

/-- Reads a member of a class. -/
def classMember : PatternReader PatternAtom := do
  match ← peek with
  | some '\\' => escape
  | some c =>
    step
    return .literal c
  | none => return .several

/-- The next character that counts after this one. -/
def peekBeyond : PatternReader (Option Char) := do
  let r ← get
  return (if r.flags.spaced then afterBlanks false r.rest.tail else r.rest.tail).head?

/-- Reads a member of a class, or a range between two of them. -/
def classRange (opened : PatternSpan) : PatternReader Unit := do
  let start ← position
  let low ← classMember
  let middle ← position
  skipBlanks
  let next ← peek
  if next.isNone then failAt opened.start opened.stop .classUnclosed
  let beyond ← peekBeyond
  if next ≠ some '-' || beyond = some ']' || beyond = some '-' then
    match low with
    | .assertion => failAt start middle .classEscape
    | _ => return
  if !(← advance) then failAt opened.start opened.stop .classUnclosed
  let second ← position
  let high ← classMember
  match low, high with
  | .literal a, .literal b => if b < a then failFrom start .classRange
  | .literal _, _ => failFrom second .classRangeEnd
  | _, _ => failAt start middle .classRangeEnd

/-- Steps over hyphens at the start of a class. -/
def skipHyphens (start : Nat) : (fuel : Nat) → PatternReader Unit
  | 0 => return
  | fuel + 1 => do
    if (← peek) = some '-' then
      if !(← advance) then failAt start start .classUnclosed
      skipHyphens start fuel

/-- Reads the start of a class; a bracket that closes it at once is a member of it. -/
def openClass : PatternReader PatternSpan := do
  let start ← position
  if !(← advance) then failFrom start .classUnclosed
  if (← peek) = some '^' then
    if !(← advance) then failFrom start .classUnclosed
  let first ← position
  skipHyphens start (← get).rest.length
  if (← position) = first && (← peek) = some ']' then
    if !(← advance) then failFrom start .classUnclosed
  return ⟨start, ← position⟩

def namedClasses : List String :=
  ["alnum", "alpha", "ascii", "blank", "cntrl", "digit", "graph", "lower", "print", "punct",
    "space", "upper", "word", "xdigit"]

/-- Takes a class by its name between colons. -/
def takeNamedClass : PatternReader Bool :=
  takeAny (namedClasses.flatMap fun name => ["[:" ++ name ++ ":]", "[:^" ++ name ++ ":]"])

/-- Reads the members of the open classes. -/
def classMembers : (fuel : Nat) → (opened : List PatternSpan) → PatternReader Unit
  | _, [] => return
  | 0, _ => return
  | fuel + 1, span :: outer => do
    skipBlanks
    match ← peek with
    | none => failAt span.start span.stop .classUnclosed
    | some '[' =>
      if ← takeNamedClass then classMembers fuel (span :: outer)
      else classMembers fuel ((← openClass) :: span :: outer)
    | some ']' =>
      step
      let flags := (← get).flags
      if flags.folded && flags.unicode then noteFrom span.start .caseUnavailable
      classMembers fuel outer
    | some _ =>
      if ← takeAny ["&&", "--", "~~"] then classMembers fuel (span :: outer)
      else
        classRange span
        classMembers fuel (span :: outer)

/-- Reads a character that stands for itself. -/
def literal : PatternReader Unit := do
  let start ← position
  step
  let flags := (← get).flags
  if flags.folded && flags.unicode then noteFrom start .caseUnavailable

/-- Reads a part of a pattern that starts with a character. -/
def part (c : Char) : PatternReader Unit := do
  if c = '(' then group
  else if c = ')' then closeGroup
  else if c = '|' then
    step
    setRepeatable false
  else if c = '?' || c = '*' || c = '+' then repeated
  else if c = '\x7b' then counted
  else
    if c = '[' then classMembers (← get).rest.length [← openClass]
    else if c = '\\' then
      let start ← position
      match ← escape with
      | .literal _ =>
        let flags := (← get).flags
        if flags.folded && flags.unicode then noteFrom start .caseUnavailable
      | _ => pure ()
    else if c = '.' || c = '^' || c = '$' then step
    else literal
    setRepeatable true

def parts : (fuel : Nat) → PatternReader Unit
  | 0 => return
  | fuel + 1 => do
    skipBlanks
    match ← peek with
    | none => return
    | some c =>
      part c
      parts fuel

/-- Reads a whole pattern. -/
def whole : PatternReader Unit := do
  parts (← get).rest.length
  match (← get).groups with
  | [] => return
  | (start, _) :: _ => failAt start (start + 1) .groupUnclosed

/-- Why a pattern cannot be searched for, if so. -/
def problem? (s : List Char) : Option String :=
  let unread (e : PatternError) : Option String :=
    some ("error building NFA: error building NFA: error parsing regex: " ++ e.message s)
  match whole.run { rest := s } with
  | .error e => unread e
  | .ok (_, r) =>
    match r.unavailable with
    | some e => unread e
    | none =>
      if r.bounded then
        let why := "unsupported regex feature for DFAs: cannot build DFAs for regexes with " ++
          "Unicode word boundaries; switch to ASCII word boundaries, or heuristically enable " ++
          "Unicode word boundaries or use a different regex engine"
        some (why ++ ": " ++ why)
      else none

end Pattern

end PlanSql
