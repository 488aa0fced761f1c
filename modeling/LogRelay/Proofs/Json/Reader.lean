import LogRelay.Numeral

/-!
# Reading JSON

Any JSON text is read: blanks between tokens, all escapes of strings, numbers with fraction and exponent, and values
nested to any depth. `lex` takes the tokens off the front of the text, and `Machine.step` takes up one token at a time,
with a frame for each array and object still open.
-/

namespace LogRelay.Json

/-- What a text stands for. A number is `coefficient * 10 ^ exponent`. -/
inductive Tree where
  | null
  | bool (b : Bool)
  | number (coefficient exponent : Int)
  | text (s : String)
  | array (items : List Tree)
  | object (members : List (String × Tree))

/-! ## Strings -/

/-- A part of a string: a character, or a UTF-16 unit given by number. -/
inductive Part where
  | char (c : Char)
  | unit (n : Nat)

/-- The character that a letter stands for behind a backslash. -/
def letterEscape? (c : Char) : Option Char :=
  [('"', '"'), ('\\', '\\'), ('/', '/'), ('b', '\x08'), ('f', '\x0c'), ('n', '\n'), ('r', '\r'), ('t', '\t')].lookup c

def hexDigit? (c : Char) : Option Nat :=
  if '0' ≤ c ∧ c ≤ '9' then some (c.toNat - '0'.toNat)
  else if 'a' ≤ c ∧ c ≤ 'f' then some (c.toNat - 'a'.toNat + 10)
  else if 'A' ≤ c ∧ c ≤ 'F' then some (c.toNat - 'A'.toNat + 10)
  else none

/-- The parts of a string behind its opening quote, and what follows the closing one. -/
def readParts : List Char → Option (List Part × List Char)
  | '"' :: rest => some ([], rest)
  | '\\' :: 'u' :: a :: b :: c :: d :: rest => do
    let digits ← [a, b, c, d].mapM hexDigit?
    let (ps, rest) ← readParts rest
    return (.unit (Radix.hexadecimal.ofDigits digits) :: ps, rest)
  | '\\' :: letter :: rest => do
    let c ← letterEscape? letter
    let (ps, rest) ← readParts rest
    return (.char c :: ps, rest)
  | c :: rest =>
    if c.toNat < 0x20 then none
    else do
      let (ps, rest) ← readParts rest
      return (.char c :: ps, rest)
  | [] => none

/-- The characters of parts. A surrogate counts only in a pair. -/
def joinParts : List Part → Option (List Char)
  | [] => some []
  | .char c :: ps => (joinParts ps).map (c :: ·)
  | .unit n :: ps =>
    if n < 0xD800 ∨ 0xE000 ≤ n then (joinParts ps).map (Char.ofNat n :: ·)
    else match ps with
      | .unit low :: ps =>
        if n < 0xDC00 ∧ 0xDC00 ≤ low ∧ low < 0xE000 then
          (joinParts ps).map (Char.ofNat (0x10000 + (n - 0xD800) * 0x400 + (low - 0xDC00)) :: ·)
        else none
      | _ => none

def readString (cs : List Char) : Option (String × List Char) := do
  let (ps, rest) ← readParts cs
  let s ← joinParts ps
  return (String.ofList s, rest)

/-! ## Numbers -/

def isDigit (c : Char) : Bool := '0' ≤ c && c ≤ '9'

def digitsValue (cs : List Char) : Nat := Radix.decimal.ofDigits (cs.map fun c => c.toNat - '0'.toNat)

/-- The digits of a fraction, which may be missing, and the rest. -/
def readFraction : List Char → Option (List Char × List Char)
  | '.' :: cs =>
    match cs.takeWhile isDigit with
    | [] => none
    | ds => some (ds, cs.dropWhile isDigit)
  | cs => some ([], cs)

/-- The digits of an exponent up to the end. -/
def exponentDigits? (cs : List Char) : Option Nat :=
  if cs = [] ∨ cs.any (!isDigit ·) then none else some (digitsValue cs)

/-- An exponent, which may be missing, up to the end. -/
def exponent? : List Char → Option Int
  | [] => some 0
  | e :: cs =>
    if e = 'e' ∨ e = 'E' then
      match cs with
      | '-' :: cs => (exponentDigits? cs).map fun n => -n
      | '+' :: cs => (exponentDigits? cs).map fun n => n
      | cs => (exponentDigits? cs).map fun n => n
    else none

/-- A number without its sign. A zero in front stands alone. -/
def magnitude? (cs : List Char) : Option (Nat × Int) :=
  match cs.takeWhile isDigit with
  | [] => none
  | '0' :: _ :: _ => none
  | ds => do
    let (fraction, cs) ← readFraction (cs.dropWhile isDigit)
    let e ← exponent? cs
    return (digitsValue (ds ++ fraction), e - fraction.length)

def number? : List Char → Option Tree
  | '-' :: cs => (magnitude? cs).map fun n => .number (-n.1) n.2
  | cs => (magnitude? cs).map fun n => .number n.1 n.2

/-! ## Tokens -/

inductive Mark where
  | beginArray | endArray | beginObject | endObject | colon | comma
  deriving DecidableEq

def Mark.ofChar? (c : Char) : Option Mark :=
  [('[', beginArray), (']', endArray), ('\x7b', beginObject), ('\x7d', endObject), (':', colon), (',', comma)].lookup c

inductive Token where
  | mark (m : Mark)
  | text (s : String)
  /-- A number or one of the three words. -/
  | scalar (t : Tree)

def scalar? (cs : List Char) : Option Tree :=
  if cs = "null".toList then some .null
  else if cs = "true".toList then some (.bool true)
  else if cs = "false".toList then some (.bool false)
  else number? cs

def isBlank (c : Char) : Bool := c = ' ' || c = '\t' || c = '\n' || c = '\r'

/-- Whether a character may stand in a number or a word. -/
def inScalar (c : Char) : Bool := !isBlank c && (Mark.ofChar? c).isNone && c ≠ '"'

/-- The token that begins with `c`, and what follows it. -/
def readToken (c : Char) (rest : List Char) : Option (Token × List Char) :=
  match Mark.ofChar? c with
  | some m => some (.mark m, rest)
  | none =>
    if c = '"' then (readString rest).map fun s => (.text s.1, s.2)
    else (scalar? (c :: rest.takeWhile inScalar)).map fun t => (.scalar t, rest.dropWhile inScalar)

theorem length_readParts_le {cs rest : List Char} {ps : List Part} (h : readParts cs = some (ps, rest)) :
    rest.length ≤ cs.length := by
  fun_induction readParts cs generalizing ps rest with
  | case1 cs =>
    cases h
    exact Nat.le_succ _
  | case2 a b c d cs ih =>
    obtain ⟨_, -, h⟩ := Option.bind_eq_some_iff.1 h
    obtain ⟨⟨ps, rest⟩, hr, h⟩ := Option.bind_eq_some_iff.1 h
    cases h
    have := ih hr
    simp only [List.length_cons]
    omega
  | case3 letter cs _ ih =>
    obtain ⟨_, -, h⟩ := Option.bind_eq_some_iff.1 h
    obtain ⟨⟨ps, rest⟩, hr, h⟩ := Option.bind_eq_some_iff.1 h
    cases h
    have := ih hr
    simp only [List.length_cons]
    omega
  | case4 => cases h
  | case5 c cs _ _ _ _ ih =>
    obtain ⟨⟨ps, rest⟩, hr, h⟩ := Option.bind_eq_some_iff.1 h
    cases h
    exact Nat.le_succ_of_le (ih hr)
  | case6 => cases h

theorem length_readToken_le {c : Char} {cs rest : List Char} {t : Token} (h : readToken c cs = some (t, rest)) :
    rest.length ≤ cs.length := by
  unfold readToken at h
  split at h
  · cases h
    exact Nat.le_refl _
  · split at h
    · obtain ⟨⟨s, rest⟩, hs, h⟩ := Option.map_eq_some_iff.1 h
      cases h
      obtain ⟨⟨ps, rest⟩, hp, hs⟩ := Option.bind_eq_some_iff.1 hs
      obtain ⟨s, -, hs⟩ := Option.bind_eq_some_iff.1 hs
      cases hs
      exact length_readParts_le hp
    · obtain ⟨t, -, h⟩ := Option.map_eq_some_iff.1 h
      cases h
      exact (List.dropWhile_suffix inScalar).length_le

def lex (cs : List Char) : Option (List Token) :=
  match cs with
  | [] => some []
  | c :: rest =>
    if isBlank c then lex rest
    else match _h : readToken c rest with
      | some (t, rest') => (lex rest').map (t :: ·)
      | none => none
termination_by cs.length
decreasing_by
  · exact Nat.lt_succ_self _
  · exact Nat.lt_succ_of_le (length_readToken_le _h)

/-! ## Values -/

/-- An array or an object that is open, with what it holds so far, the newest first. -/
inductive Frame where
  | array (items : List Tree)
  /-- The key is that of the value which comes next. -/
  | object (members : List (String × Tree)) (key : String)

inductive Expected where
  | value
  /-- The first item of an array, or its end. -/
  | firstItem
  /-- A comma before another item, or the end of the array. -/
  | nextItem (items : List Tree)
  /-- The first key of an object, or its end. -/
  | firstKey
  | key (members : List (String × Tree))
  | colon (members : List (String × Tree)) (key : String)
  /-- A comma before another key, or the end of the object. -/
  | nextKey (members : List (String × Tree))
  /-- The end, after the one value of the text. -/
  | nothing (t : Tree)

structure Machine where
  frames : List Frame
  expected : Expected

namespace Machine

/-- After a whole value. -/
def finish (frames : List Frame) (t : Tree) : Machine :=
  match frames with
  | [] => ⟨[], .nothing t⟩
  | .array items :: frames => ⟨frames, .nextItem (t :: items)⟩
  | .object members key :: frames => ⟨frames, .nextKey ((key, t) :: members)⟩

/-- After the first token of a value. -/
def begin (frames : List Frame) : Token → Option Machine
  | .scalar t => some (finish frames t)
  | .text s => some (finish frames (.text s))
  | .mark .beginArray => some ⟨frames, .firstItem⟩
  | .mark .beginObject => some ⟨frames, .firstKey⟩
  | .mark _ => none

def step (m : Machine) (t : Token) : Option Machine :=
  match m.expected, t with
  | .value, t => begin m.frames t
  | .firstItem, .mark .endArray => some (finish m.frames (.array []))
  | .firstItem, t => begin (.array [] :: m.frames) t
  | .nextItem items, .mark .comma => some ⟨.array items :: m.frames, .value⟩
  | .nextItem items, .mark .endArray => some (finish m.frames (.array items.reverse))
  | .firstKey, .mark .endObject => some (finish m.frames (.object []))
  | .firstKey, .text key => some ⟨m.frames, .colon [] key⟩
  | .key members, .text key => some ⟨m.frames, .colon members key⟩
  | .colon members key, .mark .colon => some ⟨.object members key :: m.frames, .value⟩
  | .nextKey members, .mark .comma => some ⟨m.frames, .key members⟩
  | .nextKey members, .mark .endObject => some (finish m.frames (.object members.reverse))
  | _, _ => none

/-- The value of a text that ends here. -/
def result? (m : Machine) : Option Tree :=
  match m.expected with
  | .nothing t => some t
  | _ => none

end Machine

/-- The one value that a text consists of. -/
def parse (cs : List Char) : Option Tree := do
  let ts ← lex cs
  let m ← ts.foldlM Machine.step ⟨[], .value⟩
  m.result?

end LogRelay.Json
