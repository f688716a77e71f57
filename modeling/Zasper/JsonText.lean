import Mathlib.Algebra.Group.Int.Defs
import Zasper.JsonValues

/-!
# JSON text

JSON documents as characters and as bytes. A text is cut into tokens (`lex`), and
the tokens are read as one value (`parseValue`). A value is written as its tokens
with white space between them, on one line or indented; every such text is read
back as the value that was written (`parse_print`), and so are its bytes
(`unmarshal_marshal`). Bytes that are no UTF-8 are read as replacement characters.
-/
namespace Zasper.JsonText
open Zasper.JsonValues
set_option linter.unusedSimpArgs false

inductive Token where
  | lbrace | rbrace | lbracket | rbracket | colon | comma
  | null
  | bool (b : Bool)
  | num (n : Number)
  | str (s : String)
deriving DecidableEq

/-! ## Reading numbers -/

/-- The digits a text begins with, and the rest. -/
def spanDigits : List Char → List Char × List Char
  | [] => ([],[])
  | c :: cs =>
    if c.isDigit then
      let (ds,rest) := spanDigits cs
      (c :: ds,rest)
    else ([],c :: cs)

/-- The integer part: `0`, or digits that begin with no `0`. -/
def lexWhole : List Char → Option (List Char × List Char)
  | [] => none
  | c :: cs =>
    if c = '0' then some (['0'],cs)
    else if c.isDigit then some (spanDigits (c :: cs))
    else none

/-- The digits after a point, if there is a point. -/
def lexFraction : List Char → Option (List Char × List Char)
  | '.' :: cs =>
    match spanDigits cs with
    | ([],_) => none
    | (ds,rest) => some (ds,rest)
  | cs => some ([],cs)

def lexExponentDigits (sign : Int) (cs : List Char) : Option (Option Int × List Char) :=
  match spanDigits cs with
  | ([],_) => none
  | (ds,rest) => some (some (sign * Nat.ofDigitChars 10 ds 0),rest)

/-- The exponent, if there is one. -/
def lexExponent : List Char → Option (Option Int × List Char)
  | c :: cs =>
    if c = 'e' ∨ c = 'E' then
      match cs with
      | '+' :: rest => lexExponentDigits 1 rest
      | '-' :: rest => lexExponentDigits (-1) rest
      | rest => lexExponentDigits 1 rest
    else some (none,c :: cs)
  | [] => some (none,[])

/-- The number of its digits before the point and after it, and its exponent. -/
def ofParts (negative : Bool) (whole fraction : List Char) (exponent : Option Int) : Number :=
  if plain : fraction.length = 0 ∧ exponent = none then .integer negative (Nat.ofDigitChars 10 whole 0)
  else .decimal ⟨negative,Nat.ofDigitChars 10 whole 0,fraction.length,
    Nat.ofDigitChars 10 fraction 0 % 10^fraction.length,exponent,Nat.mod_lt _ (Nat.pow_pos (by decide)),
    fun places none => absurd ⟨places,none⟩ plain⟩

def lexUnsigned (negative : Bool) (cs : List Char) : Option (Number × List Char) := do
  let (whole,cs) ← lexWhole cs
  let (fraction,cs) ← lexFraction cs
  let (exponent,cs) ← lexExponent cs
  some (ofParts negative whole fraction exponent,cs)

def lexNumber : List Char → Option (Number × List Char)
  | '-' :: cs => lexUnsigned true cs
  | cs => lexUnsigned false cs

/-! ## Reading strings -/

def hexValue (c : Char) : Option Nat :=
  if '0' ≤ c ∧ c ≤ '9' then some (c.toNat - '0'.toNat)
  else if 'a' ≤ c ∧ c ≤ 'f' then some (c.toNat - 'a'.toNat + 10)
  else if 'A' ≤ c ∧ c ≤ 'F' then some (c.toNat - 'A'.toNat + 10)
  else none

/-- Four hexadecimal digits. -/
def readHex4 : List Char → Option (Nat × List Char)
  | a :: b :: c :: d :: rest => do
    let a ← hexValue a
    let b ← hexValue b
    let c ← hexValue c
    let d ← hexValue d
    some (((a * 16 + b) * 16 + c) * 16 + d,rest)
  | _ => none

def replacement : Char := Char.ofNat 0xFFFD

/-- The character of an escaped code. The two halves of a surrogate pair stand for
    one character, a half alone for the replacement character. -/
def readUnicode (cs : List Char) : Option (Char × List Char) := do
  let (code,rest) ← readHex4 cs
  if code < 0xD800 ∨ 0xE000 ≤ code then some (Char.ofNat code,rest)
  else
    match rest with
    | '\\' :: 'u' :: more =>
      let (low,after) ← readHex4 more
      if code < 0xDC00 ∧ 0xDC00 ≤ low ∧ low < 0xE000 then
        some (Char.ofNat (0x10000 + (code - 0xD800) * 1024 + (low - 0xDC00)),after)
      else some (replacement,rest)
    | _ => some (replacement,rest)

def simpleEscape : Char → Option Char
  | '"' => some '"'
  | '\\' => some '\\'
  | '/' => some '/'
  | 'b' => some (Char.ofNat 8)
  | 'f' => some (Char.ofNat 12)
  | 'n' => some '\n'
  | 'r' => some '\r'
  | 't' => some '\t'
  | _ => none

/-- One character of a string. -/
def readChar : List Char → Option (Char × List Char)
  | [] => none
  | '\\' :: 'u' :: rest => readUnicode rest
  | '\\' :: c :: rest => (simpleEscape c).map (fun e => (e,rest))
  | c :: rest => if c = '\\' ∨ c.toNat < 0x20 then none else some (c,rest)

/-- The characters of a string up to its closing quote. -/
def lexString : Nat → List Char → Option (List Char × List Char)
  | 0, _ => none
  | _+1, '"' :: rest => some ([],rest)
  | n+1, cs => do
    let (c,rest) ← readChar cs
    let (s,rest) ← lexString n rest
    some (c :: s,rest)

/-! ## Reading tokens and values -/

def isSpace (c : Char) : Bool := c = ' ' || c = '\n' || c = '\r' || c = '\t'

def lexToken : List Char → Option (Token × List Char)
  | '{' :: cs => some (.lbrace,cs)
  | '}' :: cs => some (.rbrace,cs)
  | '[' :: cs => some (.lbracket,cs)
  | ']' :: cs => some (.rbracket,cs)
  | ':' :: cs => some (.colon,cs)
  | ',' :: cs => some (.comma,cs)
  | '"' :: cs => (lexString (cs.length + 1) cs).map (fun p => (.str (String.ofList p.1),p.2))
  | 'n' :: 'u' :: 'l' :: 'l' :: cs => some (.null,cs)
  | 't' :: 'r' :: 'u' :: 'e' :: cs => some (.bool true,cs)
  | 'f' :: 'a' :: 'l' :: 's' :: 'e' :: cs => some (.bool false,cs)
  | cs => (lexNumber cs).map (fun p => (.num p.1,p.2))

def lex : Nat → List Char → Option (List Token)
  | _, [] => some []
  | 0, _ :: _ => none
  | n+1, c :: cs =>
    if isSpace c then lex n cs
    else do
      let (t,rest) ← lexToken (c :: cs)
      let ts ← lex n rest
      some (t :: ts)

mutual
def parseValue : Nat → List Token → Option (Json × List Token)
  | _+1, .null :: ts => some (.null,ts)
  | _+1, .bool b :: ts => some (.bool b,ts)
  | _+1, .num n :: ts => some (.num n,ts)
  | _+1, .str s :: ts => some (.str s,ts)
  | _+1, .lbracket :: .rbracket :: ts => some (.arr [],ts)
  | n+1, .lbracket :: ts => do
    let (j,ts) ← parseValue n ts
    let (js,ts) ← parseItems n ts
    some (.arr (j :: js),ts)
  | _+1, .lbrace :: .rbrace :: ts => some (.obj [],ts)
  | n+1, .lbrace :: .str k :: .colon :: ts => do
    let (j,ts) ← parseValue n ts
    let (es,ts) ← parseMembers n ts
    some (.obj ((k,j) :: es),ts)
  | _, _ => none
/-- What follows an item of an array. -/
def parseItems : Nat → List Token → Option (List Json × List Token)
  | _+1, .rbracket :: ts => some ([],ts)
  | n+1, .comma :: ts => do
    let (j,ts) ← parseValue n ts
    let (js,ts) ← parseItems n ts
    some (j :: js,ts)
  | _, _ => none
/-- What follows a member of an object. -/
def parseMembers : Nat → List Token → Option (List (String × Json) × List Token)
  | _+1, .rbrace :: ts => some ([],ts)
  | n+1, .comma :: .str k :: .colon :: ts => do
    let (j,ts) ← parseValue n ts
    let (es,ts) ← parseMembers n ts
    some ((k,j) :: es,ts)
  | _, _ => none
end

/-- The one value that a text is. -/
def parse (cs : List Char) : Option Json := do
  let ts ← lex cs.length cs
  match ← parseValue ts.length ts with
  | (j,[]) => some j
  | _ => none

/-- The tokens up to the first place where there is none. -/
def lexStart : Nat → List Char → List Token
  | _, [] => []
  | 0, _ :: _ => []
  | n+1, c :: cs =>
    if isSpace c then lexStart n cs
    else
      match lexToken (c :: cs) with
      | none => []
      | some (t,rest) => t :: lexStart n rest

/-- The value that a text begins with, whatever follows it. -/
def parseStart (cs : List Char) : Option Json :=
  let ts := lexStart cs.length cs
  (parseValue ts.length ts).map Prod.fst

/-! ## Writing -/

def hexDigit (n : Nat) : Char := if n < 10 then Char.ofNat ('0'.toNat + n) else Char.ofNat ('a'.toNat + (n - 10))

def hex4 (n : Nat) : List Char :=
  [hexDigit (n / 4096 % 16),hexDigit (n / 256 % 16),hexDigit (n / 16 % 16),hexDigit (n % 16)]

/-- A character in a string. Control characters, the characters with a meaning in
    HTML and the two line separators are escaped. -/
def escape (c : Char) : List Char :=
  if c = '"' then ['\\','"']
  else if c = '\\' then ['\\','\\']
  else if c = Char.ofNat 8 then ['\\','b']
  else if c = Char.ofNat 12 then ['\\','f']
  else if c = '\n' then ['\\','n']
  else if c = '\r' then ['\\','r']
  else if c = '\t' then ['\\','t']
  else if c.toNat < 0x20 ∨ c = '<' ∨ c = '>' ∨ c = '&' ∨ c.toNat = 0x2028 ∨ c.toNat = 0x2029 then
    '\\' :: 'u' :: hex4 c.toNat
  else [c]

def signText (negative : Bool) : List Char := if negative then ['-'] else []

/-- The digits of a number in `width` places. -/
def padded (width n : Nat) : List Char :=
  List.replicate (width - (Nat.toDigits 10 n).length) '0' ++ Nat.toDigits 10 n

def fractionText (places fraction : Nat) : List Char := if places = 0 then [] else '.' :: padded places fraction

def exponentText : Option Int → List Char
  | none => []
  | some e => 'e' :: (if e < 0 then '-' else '+') :: Nat.toDigits 10 e.natAbs

def partsText (negative : Bool) (whole places fraction : Nat) (exponent : Option Int) : List Char :=
  signText negative ++ (Nat.toDigits 10 whole ++ (fractionText places fraction ++ exponentText exponent))

def numberText : Number → List Char
  | .int n => partsText (n < 0) n.natAbs 0 0 none
  | .decimal d => partsText d.negative d.whole d.places d.fraction d.exponent

def tokenText : Token → List Char
  | .lbrace => ['{']
  | .rbrace => ['}']
  | .lbracket => ['[']
  | .rbracket => [']']
  | .colon => [':']
  | .comma => [',']
  | .null => ['n','u','l','l']
  | .bool true => ['t','r','u','e']
  | .bool false => ['f','a','l','s','e']
  | .num n => numberText n
  | .str s => '"' :: (s.toList.flatMap escape ++ ['"'])

/-- White space before a token. -/
abbrev Piece := List Char × Token

/-- A new line at a depth of an indented text; nothing in a text on one line. -/
def newline (indented : Bool) (depth : Nat) : List Char :=
  if indented then '\n' :: List.replicate (2 * depth) ' ' else []

def afterColon (indented : Bool) : List Char := if indented then [' '] else []

mutual
def pieces (indented : Bool) (depth : Nat) (before : List Char) : Json → List Piece
  | .null => [(before,.null)]
  | .bool b => [(before,.bool b)]
  | .num n => [(before,.num n)]
  | .str s => [(before,.str s)]
  | .arr [] => [(before,.lbracket),([],.rbracket)]
  | .arr (j :: js) =>
    (before,.lbracket) :: (pieces indented (depth+1) (newline indented (depth+1)) j ++ itemPieces indented depth js)
  | .obj [] => [(before,.lbrace),([],.rbrace)]
  | .obj ((k,j) :: es) =>
    (before,.lbrace) :: (newline indented (depth+1),.str k) :: ([],.colon) ::
      (pieces indented (depth+1) (afterColon indented) j ++ memberPieces indented depth es)
def itemPieces (indented : Bool) (depth : Nat) : List Json → List Piece
  | [] => [(newline indented depth,.rbracket)]
  | j :: js =>
    ([],.comma) :: (pieces indented (depth+1) (newline indented (depth+1)) j ++ itemPieces indented depth js)
def memberPieces (indented : Bool) (depth : Nat) : List (String × Json) → List Piece
  | [] => [(newline indented depth,.rbrace)]
  | (k,j) :: es =>
    ([],.comma) :: (newline indented (depth+1),.str k) :: ([],.colon) ::
      (pieces indented (depth+1) (afterColon indented) j ++ memberPieces indented depth es)
end

def pieceText (p : Piece) : List Char := p.1 ++ tokenText p.2

/-- The text of a value. -/
def print (indented : Bool) (j : Json) : List Char := (pieces indented 0 [] j).flatMap pieceText


/-! ## Numbers are read back -/

/-- What follows a number is no part of it. -/
def Stops (rest : List Char) : Prop :=
  ∀ c ∈ rest.head?, c.isDigit = false ∧ c ≠ '.' ∧ c ≠ 'e' ∧ c ≠ 'E'

theorem spanDigits_append {digits rest : List Char} (all : ∀ c ∈ digits, c.isDigit = true)
    (stops : ∀ c ∈ rest.head?, c.isDigit = false) : spanDigits (digits ++ rest) = (digits,rest) := by
  induction digits with
  | nil =>
    cases rest with
    | nil => rfl
    | cons c cs => simp [spanDigits,stops c (by simp)]
  | cons c cs ih => simp [spanDigits,all c (by simp),ih (fun d member => all d (by simp [member]))]

theorem toDigits_digits (n : Nat) : ∀ c ∈ Nat.toDigits 10 n, c.isDigit = true :=
  fun _ member => Nat.isDigit_of_mem_toDigits (by decide) (by decide) member

/-- No leading zero, except in `0` itself. -/
theorem toDigits_head (n : Nat) : Nat.toDigits 10 n = ['0'] ∨ ∃ c cs, Nat.toDigits 10 n = c :: cs ∧ c ≠ '0' := by
  induction n using Nat.strongRecOn with
  | ind n ih =>
    rw [Nat.toDigits_eq_if (by decide)]
    split_ifs with small
    · have all : ∀ k < 10, Nat.digitChar k = '0' → k = 0 := by decide
      by_cases zero : n = 0
      · left; simp [zero]
      · right; exact ⟨_,[],rfl,fun same => zero (all n small same)⟩
    · right
      rcases ih (n / 10) (by omega) with zero | ⟨c,cs,digits,nonzero⟩
      · have : n / 10 = 0 := by
          have value := @Nat.ofDigitChars_ten_toDigits (n / 10)
          rw [zero] at value
          simpa [Nat.ofDigitChars_cons] using value.symm
        omega
      · exact ⟨c,cs ++ [Nat.digitChar (n % 10)],by simp [digits],nonzero⟩

theorem lexWhole_toDigits (n : Nat) {rest : List Char} (stops : ∀ c ∈ rest.head?, c.isDigit = false) :
    lexWhole (Nat.toDigits 10 n ++ rest) = some (Nat.toDigits 10 n,rest) := by
  have span := spanDigits_append (toDigits_digits n) stops
  rcases toDigits_head n with zero | ⟨c,cs,digits,nonzero⟩
  · simp [zero,lexWhole]
  · have digit : c.isDigit = true := toDigits_digits n c (by simp [digits])
    rw [digits] at span ⊢
    simpa [lexWhole,nonzero,digit] using span

theorem padded_digits (width n : Nat) : ∀ c ∈ padded width n, c.isDigit = true := by
  intro c member
  rcases List.mem_append.mp member with zero | digit
  · rw [List.eq_of_mem_replicate zero]; rfl
  · exact toDigits_digits n c digit

theorem padded_value (width n : Nat) : Nat.ofDigitChars 10 (padded width n) 0 = n := by
  simp [padded,Nat.ofDigitChars_append]

theorem padded_length {width n : Nat} (positive : 0 < width) (small : n < 10^width) :
    (padded width n).length = width := by
  have short := (Nat.length_toDigits_le_iff (show 1 < 10 by decide) positive).mpr small
  simp only [padded,List.length_append,List.length_replicate]
  omega

theorem lexExponent_stops {rest : List Char} (stops : Stops rest) : lexExponent rest = some (none,rest) := by
  cases rest with
  | nil => rfl
  | cons c cs =>
    obtain ⟨-,-,e,e'⟩ := stops c (by simp)
    simp [lexExponent,e,e']

theorem toDigits_cons (n : Nat) (rest : List Char) :
    ∃ c ds, Nat.toDigits 10 n ++ rest = c :: ds ∧ c.isDigit = true := by
  cases digits : Nat.toDigits 10 n with
  | nil => exact absurd digits Nat.toDigits_ne_nil
  | cons c ds => exact ⟨c,ds ++ rest,rfl,toDigits_digits n c (by simp [digits])⟩

theorem lexExponent_text (exponent : Option Int) {rest : List Char} (stops : Stops rest) :
    lexExponent (exponentText exponent ++ rest) = some (exponent,rest) := by
  cases exponent with
  | none => exact lexExponent_stops stops
  | some e =>
    have span : spanDigits (Nat.toDigits 10 e.natAbs ++ rest) = (Nat.toDigits 10 e.natAbs,rest) :=
      spanDigits_append (toDigits_digits _) (fun c member => (stops c member).1)
    have digits (sign : Int) : lexExponentDigits sign (Nat.toDigits 10 e.natAbs ++ rest) =
        some (some (sign * e.natAbs),rest) := by
      obtain ⟨c,ds,cons,-⟩ := toDigits_cons e.natAbs []
      rw [List.append_nil] at cons
      unfold lexExponentDigits
      rw [span]
      split
      · next none => simp [cons] at none
      · next same =>
        obtain ⟨rfl,rfl⟩ := Prod.mk.inj same
        rw [Nat.ofDigitChars_ten_toDigits]
    by_cases negative : e < 0
    · have value : -1 * (e.natAbs : Int) = e := by omega
      simp only [exponentText,negative,↓reduceIte,List.cons_append,lexExponent,true_or,digits,value]
    · have value : 1 * (e.natAbs : Int) = e := by omega
      simp only [exponentText,negative,↓reduceIte,List.cons_append,lexExponent,true_or,digits,value]

/-- The digits of a fraction as they are written. -/
def fractionDigits (places fraction : Nat) : List Char := if places = 0 then [] else padded places fraction

theorem lexFraction_text (places fraction : Nat) {rest : List Char}
    (stops : ∀ c ∈ rest.head?, c.isDigit = false ∧ c ≠ '.') :
    lexFraction (fractionText places fraction ++ rest) = some (fractionDigits places fraction,rest) := by
  by_cases none : places = 0
  · simp only [fractionText,fractionDigits,none,↓reduceIte,List.nil_append]
    cases rest with
    | nil => rfl
    | cons c cs =>
      have := (stops c (by simp)).2
      unfold lexFraction
      split
      · simp_all
      · rfl
  · have span := spanDigits_append (padded_digits places fraction) (fun c member => (stops c member).1)
    obtain ⟨c,ds,digits⟩ : ∃ c ds, padded places fraction = c :: ds := by
      apply List.exists_cons_of_ne_nil
      simp [padded]
    rw [digits] at span
    simp only [fractionText,fractionDigits,none,↓reduceIte,digits,List.cons_append,lexFraction]
    rw [← List.cons_append,span]

theorem exponentText_head (exponent : Option Int) {rest : List Char} (stops : Stops rest) :
    ∀ c ∈ (exponentText exponent ++ rest).head?, c.isDigit = false ∧ c ≠ '.' := by
  cases exponent with
  | none => exact fun c member => ⟨(stops c member).1,(stops c member).2.1⟩
  | some e =>
    intro c member
    obtain rfl : 'e' = c := by simpa [exponentText] using member
    exact ⟨rfl,by decide⟩

theorem fractionText_head (places fraction : Nat) {rest : List Char} (stops : ∀ c ∈ rest.head?, c.isDigit = false) :
    ∀ c ∈ (fractionText places fraction ++ rest).head?, c.isDigit = false := by
  by_cases none : places = 0
  · simpa [fractionText,none] using stops
  · intro c member
    obtain rfl : '.' = c := by simpa [fractionText,none] using member
    rfl

theorem lexUnsigned_text (negative : Bool) (whole places fraction : Nat) (exponent : Option Int) {rest : List Char}
    (stops : Stops rest) :
    lexUnsigned negative (Nat.toDigits 10 whole ++ (fractionText places fraction ++ (exponentText exponent ++ rest))) =
      some (ofParts negative (Nat.toDigits 10 whole) (fractionDigits places fraction) exponent,rest) := by
  have head := exponentText_head exponent stops
  have first := lexWhole_toDigits whole (fractionText_head places fraction (fun c member => (head c member).1))
  simp only [lexUnsigned,first,lexFraction_text places fraction head,lexExponent_text exponent stops,
    Option.bind_eq_bind,Option.bind_some]

theorem lexNumber_unsigned {cs : List Char} (digit : ∃ c ds, cs = c :: ds ∧ c.isDigit = true) :
    lexNumber cs = lexUnsigned false cs := by
  obtain ⟨c,ds,rfl,digit⟩ := digit
  unfold lexNumber
  split
  · rename_i minus
    rw [(List.cons.inj minus).1] at digit
    exact absurd digit (by decide)
  · rfl

theorem lexNumber_parts (negative : Bool) (whole places fraction : Nat) (exponent : Option Int) {rest : List Char}
    (stops : Stops rest) : lexNumber (partsText negative whole places fraction exponent ++ rest) =
      some (ofParts negative (Nat.toDigits 10 whole) (fractionDigits places fraction) exponent,rest) := by
  have read := lexUnsigned_text negative whole places fraction exponent stops
  cases negative with
  | true => simpa [partsText,signText,lexNumber,List.append_assoc] using read
  | false =>
    simp only [partsText,signText,Bool.false_eq_true,↓reduceIte,List.nil_append,List.append_assoc]
    rw [lexNumber_unsigned (toDigits_cons _ _),read]

theorem fractionDigits_length {places fraction : Nat} (small : fraction < 10^places) :
    (fractionDigits places fraction).length = places := by
  unfold fractionDigits
  split_ifs with none
  · simp [none]
  · exact padded_length (by omega) small

theorem fractionDigits_value {places fraction : Nat} (small : fraction < 10^places) :
    Nat.ofDigitChars 10 (fractionDigits places fraction) 0 = fraction := by
  unfold fractionDigits
  split_ifs with none
  · subst none
    have zero : fraction = 0 := by simpa using small
    rw [zero]
    rfl
  · exact padded_value _ _

/-- A number begins with a digit or a minus. -/
theorem numberText_head (n : Number) (rest : List Char) :
    ∃ c ds, numberText n ++ rest = c :: ds ∧ (c.isDigit = true ∨ c = '-') := by
  have parts (negative : Bool) (whole : Nat) (more : List Char) :
      ∃ c ds, signText negative ++ (Nat.toDigits 10 whole ++ more) = c :: ds ∧ (c.isDigit = true ∨ c = '-') := by
    cases negative with
    | true => exact ⟨'-',_,rfl,.inr rfl⟩
    | false =>
      obtain ⟨c,ds,text,digit⟩ := toDigits_cons whole more
      exact ⟨c,ds,text,.inl digit⟩
  cases n with
  | int n => simpa [numberText,partsText,List.append_assoc] using parts (n < 0) n.natAbs _
  | decimal d => simpa [numberText,partsText,List.append_assoc] using parts d.negative d.whole _

theorem lexNumber_text (n : Number) {rest : List Char} (stops : Stops rest) :
    lexNumber (numberText n ++ rest) = some (n,rest) := by
  cases n with
  | int n =>
    have value : Number.integer (n < 0) n.natAbs = .int n := by
      by_cases negative : n < 0
      · have nonzero : n ≠ 0 := by omega
        simp only [Number.integer,negative,decide_true,↓reduceIte,Int.natAbs_eq_zero,nonzero,Number.int.injEq]
        omega
      · simp only [Number.integer,negative,decide_false,Bool.false_eq_true,↓reduceIte,Number.int.injEq]
        omega
    rw [numberText,lexNumber_parts _ _ _ _ _ stops,ofParts,dif_pos ⟨rfl,rfl⟩,Nat.ofDigitChars_ten_toDigits,value]
  | decimal d =>
    obtain ⟨negative,whole,places,fraction,exponent,small,form⟩ := d
    have length := fractionDigits_length small
    have value := fractionDigits_value small
    rw [numberText,lexNumber_parts _ _ _ _ _ stops,ofParts]
    split_ifs with plain
    · -- only `-0` is written as a plain integer
      obtain ⟨none,plain⟩ := plain
      rw [length] at none
      obtain ⟨rfl,rfl⟩ := form none plain
      subst none plain
      obtain rfl : fraction = 0 := by simpa using small
      rw [Nat.ofDigitChars_ten_toDigits]
      rfl
    · simp only [Nat.ofDigitChars_ten_toDigits,length,value,Nat.mod_eq_of_lt small]

/-! ## Strings are read back -/

theorem hexValue_hexDigit : ∀ d < 16, hexValue (hexDigit d) = some d := by decide

theorem readHex4_hex4 {n : Nat} (small : n < 65536) (rest : List Char) : readHex4 (hex4 n ++ rest) = some (n,rest) := by
  have digit (k : Nat) : hexValue (hexDigit (k % 16)) = some (k % 16) := hexValue_hexDigit _ (by omega)
  simp only [hex4,List.cons_append,List.nil_append,readHex4,digit,Option.bind_eq_bind,Option.bind_some]
  congr 2
  omega

theorem readChar_unicode (c : Char) (small : c.toNat < 0xD800) (rest : List Char) :
    readChar ('\\' :: 'u' :: hex4 c.toNat ++ rest) = some (c,rest) := by
  simp only [List.cons_append,readChar,readUnicode,readHex4_hex4 (show c.toNat < 65536 by omega),
    Option.bind_eq_bind,Option.bind_some]
  rw [if_pos (Or.inl small),Char.ofNat_toNat]

/-- How a character is written: by a letter, by its number, or as it is. -/
theorem escape_cases (c : Char) :
    (∃ letter, escape c = ['\\',letter] ∧ letter ≠ 'u' ∧ simpleEscape letter = some c) ∨
      (escape c = '\\' :: 'u' :: hex4 c.toNat ∧ c.toNat < 0xD800) ∨
      (escape c = [c] ∧ c ≠ '"' ∧ c ≠ '\\' ∧ ¬ c.toNat < 0x20) := by
  unfold escape
  by_cases quote : c = '"'
  · rw [if_pos quote]
    exact .inl ⟨_,rfl,by decide,congrArg some quote.symm⟩
  rw [if_neg quote]
  by_cases backslash : c = '\\'
  · rw [if_pos backslash]
    exact .inl ⟨_,rfl,by decide,congrArg some backslash.symm⟩
  rw [if_neg backslash]
  by_cases b : c = Char.ofNat 8
  · rw [if_pos b]
    exact .inl ⟨_,rfl,by decide,congrArg some b.symm⟩
  rw [if_neg b]
  by_cases f : c = Char.ofNat 12
  · rw [if_pos f]
    exact .inl ⟨_,rfl,by decide,congrArg some f.symm⟩
  rw [if_neg f]
  by_cases n : c = '\n'
  · rw [if_pos n]
    exact .inl ⟨_,rfl,by decide,congrArg some n.symm⟩
  rw [if_neg n]
  by_cases r : c = '\r'
  · rw [if_pos r]
    exact .inl ⟨_,rfl,by decide,congrArg some r.symm⟩
  rw [if_neg r]
  by_cases t : c = '\t'
  · rw [if_pos t]
    exact .inl ⟨_,rfl,by decide,congrArg some t.symm⟩
  rw [if_neg t]
  by_cases code : c.toNat < 0x20 ∨ c = '<' ∨ c = '>' ∨ c = '&' ∨ c.toNat = 0x2028 ∨ c.toNat = 0x2029
  · rw [if_pos code]
    refine .inr (.inl ⟨rfl,?_⟩)
    rcases code with low | rfl | rfl | rfl | sep | sep
    · omega
    · decide
    · decide
    · decide
    · omega
    · omega
  · rw [if_neg code]
    exact .inr (.inr ⟨rfl,quote,backslash,fun low => code (.inl low)⟩)

theorem readChar_escape (c : Char) (rest : List Char) : readChar (escape c ++ rest) = some (c,rest) := by
  rcases escape_cases c with ⟨letter,text,other,letters⟩ | ⟨text,small⟩ | ⟨text,-,backslash,high⟩
  · rw [text,List.cons_append,List.cons_append,List.nil_append,readChar]
    · simp [letters]
    · exact other
  · rw [text]
    exact readChar_unicode c small rest
  · rw [text,List.cons_append,List.nil_append,readChar]
    · simp [backslash,high]
    · rintro rest' rfl
      exact absurd rfl backslash
    · rintro letter rest' rfl
      exact absurd rfl backslash

theorem escape_head (c : Char) (rest : List Char) : ∃ d ds, escape c ++ rest = d :: ds ∧ d ≠ '"' := by
  rcases escape_cases c with ⟨letter,text,-,-⟩ | ⟨text,-⟩ | ⟨text,quote,-,-⟩
  · exact ⟨'\\',_,by rw [text]; rfl,by decide⟩
  · exact ⟨'\\',_,by rw [text]; rfl,by decide⟩
  · exact ⟨c,_,by rw [text]; rfl,quote⟩

theorem lexString_escape (s : List Char) (rest : List Char) :
    ∀ n, s.length < n → lexString n (s.flatMap escape ++ '"' :: rest) = some (s,rest) := by
  induction s with
  | nil =>
    intro n enough
    obtain ⟨n,rfl⟩ := Nat.exists_eq_add_of_lt enough
    simp [lexString]
  | cons c cs ih =>
    intro n enough
    obtain ⟨n,rfl⟩ : ∃ k, n = k+1 := ⟨n-1,by simp at enough; omega⟩
    obtain ⟨d,ds,text,other⟩ := escape_head c (cs.flatMap escape ++ '"' :: rest)
    have read := readChar_escape c (cs.flatMap escape ++ '"' :: rest)
    simp only [List.flatMap_cons,List.append_assoc]
    rw [text] at read ⊢
    rw [lexString]
    · simp only [read,Option.bind_eq_bind,Option.bind_some,ih n (by simpa using enough)]
    · simp_all

theorem length_le_escape (s : List Char) : s.length ≤ (s.flatMap escape).length := by
  induction s with
  | nil => simp
  | cons c cs ih =>
    obtain ⟨d,ds,text,-⟩ := escape_head c []
    have : 1 ≤ (escape c).length := by
      have := congrArg List.length text
      simp at this; omega
    simp only [List.flatMap_cons,List.length_append,List.length_cons]
    omega


/-! ## Values are read back -/

/-- Brackets, braces, the colon and the comma. -/
def Token.isMark : Token → Bool
  | .lbrace | .rbrace | .lbracket | .rbracket | .colon | .comma => true
  | _ => false

/-- Every number is followed by a mark, or by nothing. -/
def Apart : List Token → Prop
  | [] => True
  | t :: ts => ((∃ n, t = .num n) → ∀ u ∈ ts.head?, u.isMark = true) ∧ Apart ts

theorem lexToken_text (t : Token) {rest : List Char} (stops : (∃ n, t = .num n) → Stops rest) :
    lexToken (tokenText t ++ rest) = some (t,rest) := by
  cases t with
  | bool b => cases b <;> rfl
  | str s =>
    have enough : s.toList.length < (s.toList.flatMap escape ++ '"' :: rest).length + 1 := by
      have := length_le_escape s.toList
      simp only [List.length_append]; omega
    have read := lexString_escape s.toList rest _ enough
    simp only [tokenText,List.cons_append,List.append_assoc,List.nil_append,lexToken]
    rw [read]
    simp
  | num n =>
    have number := lexNumber_text n (stops ⟨n,rfl⟩)
    obtain ⟨c,ds,text,first⟩ := numberText_head n rest
    simp only [tokenText]
    rw [text] at number ⊢
    have other : ∀ d : Char, d.isDigit = false → d ≠ '-' → c ≠ d := by
      rintro d digit minus rfl
      rcases first with yes | same
      · rw [yes] at digit; cases digit
      · exact minus same
    unfold lexToken
    split
    all_goals first
      | (rename_i same; exact absurd (List.cons.inj same).1 (other _ (by decide) (by decide)))
      | simp [number]
  | _ => rfl

theorem lex_space (n : Nat) {spaces : List Char} (all : ∀ c ∈ spaces, isSpace c = true) (cs : List Char) :
    lex (spaces.length + n) (spaces ++ cs) = lex n cs := by
  induction spaces with
  | nil => simp
  | cons c rest ih =>
    have shift : (c :: rest).length + n = (rest.length + n) + 1 := by simp; omega
    rw [shift,List.cons_append,lex,if_pos (all c (by simp)),ih (fun d member => all d (by simp [member]))]

theorem isSpace_stops {c : Char} (space : isSpace c = true) :
    c.isDigit = false ∧ c ≠ '.' ∧ c ≠ 'e' ∧ c ≠ 'E' := by
  have : ((c = ' ' ∨ c = '\n') ∨ c = '\r') ∨ c = '\t' := by simpa [isSpace] using space
  rcases this with ((rfl | rfl) | rfl) | rfl <;> decide

/-- A token begins with a character that is no white space. -/
theorem tokenText_cons (t : Token) : ∃ c cs, tokenText t = c :: cs ∧ isSpace c = false := by
  cases t with
  | bool b => cases b <;> exact ⟨_,_,rfl,by decide⟩
  | num n =>
    obtain ⟨c,ds,text,first⟩ := numberText_head n []
    refine ⟨c,ds,by simpa [tokenText] using text,?_⟩
    rcases first with digit | rfl
    · cases space : isSpace c with
      | false => rfl
      | true => rw [(isSpace_stops space).1] at digit; cases digit
    · rfl
  | _ => exact ⟨_,_,rfl,by decide⟩

theorem mark_stops {t : Token} (mark : t.isMark = true) (rest : List Char) : Stops (tokenText t ++ rest) := by
  cases t <;> first
    | (intro c member; cases Option.some.inj member; decide)
    | cases mark

/-- The tokens of a text with white space between and after them. -/
theorem lex_pieces {after : List Char} (blank : ∀ c ∈ after, isSpace c = true) (ps : List Piece)
    (spaces : ∀ p ∈ ps, ∀ c ∈ p.1, isSpace c = true) (apart : Apart (ps.map (·.2))) :
    ∀ n, (ps.flatMap pieceText ++ after).length ≤ n → lex n (ps.flatMap pieceText ++ after) = some (ps.map (·.2)) := by
  induction ps with
  | nil =>
    intro n enough
    obtain ⟨m,rfl⟩ : ∃ m, n = after.length + m := ⟨n - after.length,by simp at enough; omega⟩
    have skipped := lex_space m blank []
    rw [List.append_nil] at skipped
    rw [List.flatMap_nil,List.nil_append,skipped]
    cases m <;> rfl
  | cons p rest ih =>
    obtain ⟨gap,t⟩ := p
    intro n enough
    have ih := ih (fun p member => spaces p (by simp [member])) apart.2
    have length : gap.length + ((tokenText t).length + (rest.flatMap pieceText ++ after).length) ≤ n := by
      simpa [pieceText,Nat.add_assoc] using enough
    obtain ⟨c,cs,text,noSpace⟩ := tokenText_cons t
    have positive : (tokenText t).length = cs.length + 1 := by simp [text]
    obtain ⟨m,rfl⟩ : ∃ m, n = gap.length + (m + 1) := ⟨n - gap.length - 1,by omega⟩
    have stops : (∃ k, t = .num k) → Stops (rest.flatMap pieceText ++ after) := by
      intro number
      cases rest with
      | nil =>
        intro d member
        exact isSpace_stops (blank d (List.mem_of_mem_head? member))
      | cons q more =>
        obtain ⟨gap',u⟩ := q
        have mark : u.isMark = true := apart.1 number u (by simp)
        cases gap' with
        | nil => simpa [pieceText] using mark_stops mark (more.flatMap pieceText ++ after)
        | cons s ss =>
          intro d member
          have same : s = d := by simpa [pieceText] using member
          subst same
          exact isSpace_stops (spaces (s :: ss,u) (by simp) s (by simp))
    have token := lexToken_text t stops
    have whole : ((gap,t) :: rest).flatMap pieceText ++ after = gap ++ (c :: (cs ++ (rest.flatMap pieceText ++ after))) := by
      simp [pieceText,text]
    rw [whole,lex_space (m+1) (spaces (gap,t) (by simp)),lex,if_neg (by simp [noSpace])]
    rw [text,List.cons_append] at token
    simp only [token,Option.bind_eq_bind,Option.bind_some,ih m (by omega),List.map_cons]

mutual
/-- The tokens of a value. -/
def tokens : Json → List Token
  | .null => [.null]
  | .bool b => [.bool b]
  | .num n => [.num n]
  | .str s => [.str s]
  | .arr [] => [.lbracket,.rbracket]
  | .arr (j :: js) => .lbracket :: (tokens j ++ itemTokens js)
  | .obj [] => [.lbrace,.rbrace]
  | .obj ((k,j) :: es) => .lbrace :: .str k :: .colon :: (tokens j ++ memberTokens es)
def itemTokens : List Json → List Token
  | [] => [.rbracket]
  | j :: js => .comma :: (tokens j ++ itemTokens js)
def memberTokens : List (String × Json) → List Token
  | [] => [.rbrace]
  | (k,j) :: es => .comma :: .str k :: .colon :: (tokens j ++ memberTokens es)
end

mutual
theorem pieces_tokens (indented : Bool) (depth : Nat) (before : List Char) :
    (j : Json) → (pieces indented depth before j).map (·.2) = tokens j
  | .null => rfl
  | .bool _ => rfl
  | .num _ => rfl
  | .str _ => rfl
  | .arr [] => rfl
  | .arr (j :: js) => by
    simp [pieces,tokens,pieces_tokens indented (depth+1) _ j,itemPieces_tokens indented depth js]
  | .obj [] => rfl
  | .obj ((k,j) :: es) => by
    simp [pieces,tokens,pieces_tokens indented (depth+1) _ j,memberPieces_tokens indented depth es]
theorem itemPieces_tokens (indented : Bool) (depth : Nat) :
    (js : List Json) → (itemPieces indented depth js).map (·.2) = itemTokens js
  | [] => rfl
  | j :: js => by
    simp [itemPieces,itemTokens,pieces_tokens indented (depth+1) _ j,itemPieces_tokens indented depth js]
theorem memberPieces_tokens (indented : Bool) (depth : Nat) :
    (es : List (String × Json)) → (memberPieces indented depth es).map (·.2) = memberTokens es
  | [] => rfl
  | (k,j) :: es => by
    simp [memberPieces,memberTokens,pieces_tokens indented (depth+1) _ j,memberPieces_tokens indented depth es]
end

/-- All white space of the pieces is white space. -/
def Blank (ps : List Piece) : Prop := ∀ p ∈ ps, ∀ c ∈ p.1, isSpace c = true

theorem blank_cons {p : Piece} {ps : List Piece} : Blank (p :: ps) ↔ (∀ c ∈ p.1, isSpace c = true) ∧ Blank ps := by
  simp [Blank]
theorem blank_append {ps qs : List Piece} : Blank (ps ++ qs) ↔ Blank ps ∧ Blank qs := by
  simp only [Blank,List.mem_append]
  exact ⟨fun h => ⟨fun p m => h p (.inl m),fun p m => h p (.inr m)⟩,
    fun h p m => m.elim (h.1 p) (h.2 p)⟩

theorem newline_space (indented : Bool) (depth : Nat) : ∀ c ∈ newline indented depth, isSpace c = true := by
  intro c member
  cases indented with
  | false => simp [newline] at member
  | true =>
    have : c = '\n' ∨ ¬2 * depth = 0 ∧ c = ' ' := by simpa [newline] using member
    rcases this with rfl | ⟨-,rfl⟩ <;> rfl

theorem afterColon_space (indented : Bool) : ∀ c ∈ afterColon indented, isSpace c = true := by
  cases indented <;> simp [afterColon,isSpace]

mutual
theorem pieces_blank (indented : Bool) (depth : Nat) (before : List Char) (space : ∀ c ∈ before, isSpace c = true) :
    (j : Json) → Blank (pieces indented depth before j)
  | .null => by simpa [pieces,Blank] using space
  | .bool _ => by simpa [pieces,Blank] using space
  | .num _ => by simpa [pieces,Blank] using space
  | .str _ => by simpa [pieces,Blank] using space
  | .arr [] => by simpa [pieces,Blank] using space
  | .arr (j :: js) => by
    simp only [pieces,blank_cons,blank_append]
    exact ⟨space,pieces_blank indented (depth+1) _ (newline_space indented _) j,itemPieces_blank indented depth js⟩
  | .obj [] => by simpa [pieces,Blank] using space
  | .obj ((k,j) :: es) => by
    simp only [pieces,blank_cons,blank_append]
    exact ⟨space,newline_space indented _,by simp,
      pieces_blank indented (depth+1) _ (afterColon_space indented) j,memberPieces_blank indented depth es⟩
theorem itemPieces_blank (indented : Bool) (depth : Nat) : (js : List Json) → Blank (itemPieces indented depth js)
  | [] => by simpa [itemPieces,Blank] using newline_space indented depth
  | j :: js => by
    simp only [itemPieces,blank_cons,blank_append]
    exact ⟨by simp,pieces_blank indented (depth+1) _ (newline_space indented _) j,itemPieces_blank indented depth js⟩
theorem memberPieces_blank (indented : Bool) (depth : Nat) :
    (es : List (String × Json)) → Blank (memberPieces indented depth es)
  | [] => by simpa [memberPieces,Blank] using newline_space indented depth
  | (k,j) :: es => by
    simp only [memberPieces,blank_cons,blank_append]
    exact ⟨by simp,newline_space indented _,by simp,
      pieces_blank indented (depth+1) _ (afterColon_space indented) j,memberPieces_blank indented depth es⟩
end

/-- A mark comes next, or nothing. -/
def Closed (ts : List Token) : Prop := ∀ t ∈ ts.head?, t.isMark = true

theorem apart_cons {t : Token} (plain : ∀ n, t ≠ .num n) {ts : List Token} (rest : Apart ts) : Apart (t :: ts) :=
  ⟨fun ⟨n,same⟩ => absurd same (plain n),rest⟩

theorem itemTokens_closed (js : List Json) (ts : List Token) : Closed (itemTokens js ++ ts) := by
  cases js <;> simp [itemTokens,Closed,Token.isMark]

theorem memberTokens_closed (es : List (String × Json)) (ts : List Token) : Closed (memberTokens es ++ ts) := by
  rcases es with _ | ⟨⟨k,j⟩,es⟩ <;> simp [memberTokens,Closed,Token.isMark]

mutual
theorem tokens_apart : (j : Json) → (ts : List Token) → Apart ts → Closed ts → Apart (tokens j ++ ts)
  | .null, _, rest, _ => apart_cons (by simp) rest
  | .bool _, _, rest, _ => apart_cons (by simp) rest
  | .num _, _, rest, closed => ⟨fun _ => closed,rest⟩
  | .str _, _, rest, _ => apart_cons (by simp) rest
  | .arr [], _, rest, _ => apart_cons (by simp) (apart_cons (by simp) rest)
  | .arr (j :: js), ts, rest, _ => by
    simp only [tokens,List.cons_append,List.append_assoc]
    exact apart_cons (by simp) (tokens_apart j _ (itemTokens_apart js ts rest) (itemTokens_closed js ts))
  | .obj [], _, rest, _ => apart_cons (by simp) (apart_cons (by simp) rest)
  | .obj ((k,j) :: es), ts, rest, _ => by
    simp only [tokens,List.cons_append,List.append_assoc]
    exact apart_cons (by simp) (apart_cons (by simp) (apart_cons (by simp)
      (tokens_apart j _ (memberTokens_apart es ts rest) (memberTokens_closed es ts))))
theorem itemTokens_apart : (js : List Json) → (ts : List Token) → Apart ts → Apart (itemTokens js ++ ts)
  | [], _, rest => apart_cons (by simp) rest
  | j :: js, ts, rest => by
    simp only [itemTokens,List.cons_append,List.append_assoc]
    exact apart_cons (by simp) (tokens_apart j _ (itemTokens_apart js ts rest) (itemTokens_closed js ts))
theorem memberTokens_apart : (es : List (String × Json)) → (ts : List Token) → Apart ts →
    Apart (memberTokens es ++ ts)
  | [], _, rest => apart_cons (by simp) rest
  | (k,j) :: es, ts, rest => by
    simp only [memberTokens,List.cons_append,List.append_assoc]
    exact apart_cons (by simp) (apart_cons (by simp) (apart_cons (by simp)
      (tokens_apart j _ (memberTokens_apart es ts rest) (memberTokens_closed es ts))))
end

theorem tokens_not_rbracket (j : Json) : ∃ t ts, tokens j = t :: ts ∧ t ≠ .rbracket := by
  cases j with
  | arr js => cases js <;> exact ⟨_,_,rfl,by simp⟩
  | obj es =>
    rcases es with _ | ⟨⟨k,j⟩,es⟩ <;> exact ⟨_,_,rfl,by simp⟩
  | _ => exact ⟨_,_,rfl,by simp⟩

mutual
theorem parseValue_tokens : (j : Json) → (ts : List Token) → (n : Nat) → (tokens j).length ≤ n →
    parseValue n (tokens j ++ ts) = some (j,ts)
  | .null, _, n+1, _ => rfl
  | .bool _, _, n+1, _ => rfl
  | .num _, _, n+1, _ => rfl
  | .str _, _, n+1, _ => rfl
  | .arr [], _, n+1, _ => rfl
  | .arr (j :: js), ts, n+1, enough => by
    have length : (tokens j).length + (itemTokens js).length ≤ n := by simpa [tokens] using enough
    have value := parseValue_tokens j (itemTokens js ++ ts) n (by omega)
    have items := parseItems_tokens js ts n (by omega)
    obtain ⟨t,more,head,other⟩ := tokens_not_rbracket j
    simp only [tokens,List.cons_append,List.append_assoc]
    rw [head,List.cons_append] at value ⊢
    rw [parseValue]
    · simp only [value,items,Option.bind_eq_bind,Option.bind_some]
    · intro _ same; exact other (List.cons.inj same).1
  | .obj [], _, n+1, _ => rfl
  | .obj ((k,j) :: es), ts, n+1, enough => by
    have length : (tokens j).length + (memberTokens es).length + 2 ≤ n := by
      have : (tokens j).length + (memberTokens es).length + 1 + 1 + 1 ≤ n + 1 := by simpa [tokens] using enough
      omega
    simp only [tokens,List.cons_append,List.append_assoc,parseValue,
      parseValue_tokens j (memberTokens es ++ ts) n (by omega),parseMembers_tokens es ts n (by omega),
      Option.bind_eq_bind,Option.bind_some]
  | .null, _, 0, enough => by simp [tokens] at enough
  | .bool _, _, 0, enough => by simp [tokens] at enough
  | .num _, _, 0, enough => by simp [tokens] at enough
  | .str _, _, 0, enough => by simp [tokens] at enough
  | .arr [], _, 0, enough => by simp [tokens] at enough
  | .arr (_ :: _), _, 0, enough => by simp [tokens] at enough
  | .obj [], _, 0, enough => by simp [tokens] at enough
  | .obj (_ :: _), _, 0, enough => by simp [tokens] at enough
theorem parseItems_tokens : (js : List Json) → (ts : List Token) → (n : Nat) → (itemTokens js).length ≤ n →
    parseItems n (itemTokens js ++ ts) = some (js,ts)
  | [], _, n+1, _ => rfl
  | j :: js, ts, n+1, enough => by
    have length : (tokens j).length + (itemTokens js).length ≤ n := by simpa [itemTokens] using enough
    simp only [itemTokens,List.cons_append,List.append_assoc,parseItems,
      parseValue_tokens j (itemTokens js ++ ts) n (by omega),parseItems_tokens js ts n (by omega),
      Option.bind_eq_bind,Option.bind_some]
  | [], _, 0, enough => by simp [itemTokens] at enough
  | _ :: _, _, 0, enough => by simp [itemTokens] at enough
theorem parseMembers_tokens : (es : List (String × Json)) → (ts : List Token) → (n : Nat) →
    (memberTokens es).length ≤ n → parseMembers n (memberTokens es ++ ts) = some (es,ts)
  | [], _, n+1, _ => rfl
  | (k,j) :: es, ts, n+1, enough => by
    have length : (tokens j).length + (memberTokens es).length + 2 ≤ n := by
      have : (tokens j).length + (memberTokens es).length + 1 + 1 + 1 ≤ n + 1 := by simpa [memberTokens] using enough
      omega
    simp only [memberTokens,List.cons_append,List.append_assoc,parseMembers,
      parseValue_tokens j (memberTokens es ++ ts) n (by omega),parseMembers_tokens es ts n (by omega),
      Option.bind_eq_bind,Option.bind_some]
  | [], _, 0, enough => by simp [memberTokens] at enough
  | _ :: _, _, 0, enough => by simp [memberTokens] at enough
end

/-- Every value is read back from its text, on one line or indented, with white space
    after it. -/
theorem parse_print (indented : Bool) (j : Json) {after : List Char} (blank : ∀ c ∈ after, isSpace c = true) :
    parse (print indented j ++ after) = some j := by
  have apart : Apart (tokens j) := by
    simpa using tokens_apart j [] trivial (fun _ none => by cases none)
  have cut : lex (print indented j ++ after).length (print indented j ++ after) = some (tokens j) := by
    have := lex_pieces blank (pieces indented 0 [] j) (pieces_blank indented 0 [] (by simp) j)
      (by rw [pieces_tokens]; exact apart) _ (Nat.le_refl _)
    rwa [pieces_tokens] at this
  have value : parseValue (tokens j).length (tokens j) = some (j,[]) := by
    simpa using parseValue_tokens j [] _ (Nat.le_refl _)
  simp [parse,-List.length_append,cut,value]

theorem lexStart_of_lex {n : Nat} {cs : List Char} {ts : List Token} (cut : lex n cs = some ts) : lexStart n cs = ts := by
  induction n,cs using lex.induct generalizing ts with
  | case1 n => simpa [lex,lexStart] using cut
  | case2 c cs => simp [lex] at cut
  | case3 n c cs space ih =>
    rw [lex,if_pos space] at cut
    rw [lexStart,if_pos space,ih cut]
  | case4 n c cs other ih =>
    rw [lex,if_neg other] at cut
    rw [lexStart,if_neg other]
    cases first : lexToken (c :: cs) with
    | none => simp [first] at cut
    | some p =>
      cases later : lex n p.2 with
      | none => simp [first,later] at cut
      | some more =>
        have whole : p.1 :: more = ts := by simpa [first,later] using cut
        simp [ih p.2 later,whole]

/-- A text that is a value begins with it. -/
theorem parseStart_of_parse {cs : List Char} {j : Json} (whole : parse cs = some j) : parseStart cs = some j := by
  unfold parse at whole
  cases cut : lex cs.length cs with
  | none => simp [cut] at whole
  | some ts =>
    rw [parseStart,lexStart_of_lex cut]
    simp only [cut] at whole
    cases value : parseValue ts.length ts with
    | none => simp [value] at whole
    | some p =>
      obtain ⟨k,rest⟩ := p
      cases rest with
      | nil => simpa [value] using whole
      | cons t rest => simp [value] at whole

/-! ## Bytes -/

/-- The UTF-8 bytes of a text. -/
def utf8 (cs : List Char) : List UInt8 := cs.flatMap String.utf8EncodeChar

/-- The text of valid UTF-8. -/
def utf8Decode? (bytes : List UInt8) : Option (List Char) :=
  bytes.toByteArray.utf8Decode?.map Array.toList

/-- The text of any bytes: a byte that belongs to no character is read as the
    replacement character. -/
def utf8Repair : Nat → List UInt8 → List Char
  | 0, _ => []
  | _, [] => []
  | n+1, b :: bytes =>
    match [1,2,3,4].findSome? (fun k => (utf8Decode? ((b :: bytes).take k)).bind
        (fun cs => if cs.length = 1 then some (k,cs) else none)) with
    | some (k,cs) => cs ++ utf8Repair n ((b :: bytes).drop k)
    | none => replacement :: utf8Repair n bytes

def decodeUtf8 (bytes : List UInt8) : List Char := (utf8Decode? bytes).getD (utf8Repair bytes.length bytes)

theorem utf8Decode?_utf8 (cs : List Char) : utf8Decode? (utf8 cs) = some cs := by
  have encoded : (utf8 cs).toByteArray = cs.utf8Encode := rfl
  simp [utf8Decode?,encoded]

theorem decodeUtf8_utf8 (cs : List Char) : decodeUtf8 (utf8 cs) = cs := by
  rw [decodeUtf8,utf8Decode?_utf8,Option.getD_some]

/-- The bytes of a value. -/
def marshal (j : Json) : List UInt8 := utf8 (print false j)
def marshalIndent (j : Json) : List UInt8 := utf8 (print true j)
/-- The value that bytes are. -/
def unmarshal (bytes : List UInt8) : Option Json := parse (decodeUtf8 bytes)

/-- The value that bytes begin with. -/
def unmarshalStart (bytes : List UInt8) : Option Json := parseStart (decodeUtf8 bytes)

theorem unmarshal_print (indented : Bool) (j : Json) : unmarshal (utf8 (print indented j)) = some j := by
  have read := parse_print indented j (List.forall_mem_nil _)
  rw [List.append_nil] at read
  rw [unmarshal,decodeUtf8_utf8,read]
@[simp] theorem unmarshal_marshal (j : Json) : unmarshal (marshal j) = some j := unmarshal_print false j
@[simp] theorem unmarshal_marshalIndent (j : Json) : unmarshal (marshalIndent j) = some j := unmarshal_print true j

@[simp] theorem unmarshalStart_marshal (j : Json) : unmarshalStart (marshal j) = some j :=
  parseStart_of_parse (unmarshal_marshal j)

/-- An encoder writes a value and ends the line. -/
def encodeIndent (j : Json) : List UInt8 := marshalIndent j ++ [0x0A]

@[simp] theorem unmarshalStart_encodeIndent (j : Json) : unmarshalStart (encodeIndent j) = some j := by
  have line : encodeIndent j = utf8 (print true j ++ ['\n']) := by
    have ending : utf8 ['\n'] = [0x0A] := by decide
    rw [encodeIndent,marshalIndent,← ending,utf8,utf8,utf8,List.flatMap_append]
  rw [unmarshalStart,line,decodeUtf8_utf8]
  refine parseStart_of_parse (parse_print true j ?_)
  intro c member
  rw [List.mem_singleton.mp member]
  decide

theorem memberPieces_ends (indented : Bool) (depth : Nat) (es : List (String × Json)) :
    [(newline indented depth,.rbrace)] <:+ memberPieces indented depth es := by
  induction es with
  | nil => exact List.suffix_rfl
  | cons e es ih =>
    have last : memberPieces indented depth es <:+
        pieces indented (depth+1) (afterColon indented) e.2 ++ memberPieces indented depth es := List.suffix_append ..
    rw [memberPieces]
    exact ih.trans (last.trans ((List.suffix_cons ..).trans ((List.suffix_cons ..).trans (List.suffix_cons ..))))

/-- The pieces of an object stand in braces. -/
theorem pieces_obj (indented : Bool) (members : List (String × Json)) :
    ∃ ps gap, pieces indented 0 [] (.obj members) = ([],.lbrace) :: (ps ++ [(gap,.rbrace)]) := by
  cases members with
  | nil => exact ⟨[],[],rfl⟩
  | cons e es =>
    obtain ⟨ps,ends⟩ := memberPieces_ends indented 0 es
    rw [pieces,← ends,← List.append_assoc,← List.cons_append,← List.cons_append]
    exact ⟨_,newline indented 0,rfl⟩

/-- The text of an object stands in braces. -/
theorem print_obj (indented : Bool) (members : List (String × Json)) :
    ∃ cs, print indented (.obj members) = '{' :: (cs ++ ['}']) := by
  obtain ⟨ps,gap,braces⟩ := pieces_obj indented members
  refine ⟨ps.flatMap pieceText ++ gap,?_⟩
  rw [print,braces]
  simp [pieceText,tokenText]

theorem marshal_inj {j k : Json} (same : marshal j = marshal k) : j = k := by
  have read := unmarshal_marshal j
  rw [same,unmarshal_marshal] at read
  exact (Option.some.inj read).symm

end Zasper.JsonText
