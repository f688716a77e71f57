import Mathlib.Data.String.Basic
import Zasper.Floats
import Zasper.Maps

/-!
# JSON values

JSON trees as a document spells them (`Json`: numbers with their digits, members in
the order written, a key possibly twice), and the values a program holds once it has
decoded one (`Value`: every number a binary one of 64 bits, every object a finite map).
Decoding rounds the numbers, brings the members of each object in key order and lets
the last of several members with one key stand (`denoted`). What a document says
before its numbers are rounded is its `meaning`.
-/
namespace Zasper.JsonValues
open Zasper.Maps Zasper.Floats
set_option linter.unusedSimpArgs false

/-! ## Numbers -/

/-- A number with a point or an exponent: the digits before the point, the places after
    it with their digits, and the exponent. The integer `-0` is one too. -/
structure Decimal where
  negative : Bool
  whole : Nat
  places : Nat
  fraction : Nat
  exponent : Option Int
  small : fraction < 10^places
  form : places = 0 → exponent = none → negative = true ∧ whole = 0
deriving DecidableEq

inductive Number where
  | int (n : Int)
  | decimal (d : Decimal)
deriving DecidableEq

/-- The integer `-0`. -/
def negZero : Decimal := ⟨true,0,0,0,none,by decide,fun _ _ => ⟨rfl,rfl⟩⟩

/-- The format of a `float64`. -/
def binary64 : Format := ⟨53,-1074,971,by decide,by decide,by decide⟩

namespace Number

def negative : Number → Bool
  | .int n => n < 0
  | .decimal d => d.negative

/-- The number without its sign. -/
def magnitude : Number → ℚ
  | .int n => n.natAbs
  | .decimal d => (d.whole + d.fraction / 10^d.places) * 10^(d.exponent.getD 0)

/-- The integer that a number is written as, if it is; `-0` is one. -/
def asInt? : Number → Option Int
  | .int n => some n
  | .decimal d => if d.places = 0 ∧ d.exponent = none then some 0 else none

def integer (negative : Bool) (n : Nat) : Number :=
  if negative then if n = 0 then .decimal negZero else .int (-n) else .int n

/-- The digits `c` with the last one at `10^q`, written without an exponent. -/
def fixed (negative : Bool) (c : Nat) (q : Int) : Number :=
  if before : 0 ≤ q then integer negative (c * 10^q.toNat)
  else .decimal ⟨negative,c / 10^(-q).toNat,(-q).toNat,c % 10^(-q).toNat,none,Nat.mod_lt _ (by positivity),
    fun none => absurd none (by omega)⟩

/-- The digits `c` with the last one at `10^q`, written with a point after the first digit
    and an exponent. -/
def scientific (negative : Bool) (c : Nat) (q : Int) : Number :=
  let places := (Nat.toDigits 10 c).length - 1
  .decimal ⟨negative,c / 10^places,places,c % 10^places,some (places + q),Nat.mod_lt _ (by positivity),
    fun _ none => nomatch none⟩

/-- A `float64` as it is written: with the shortest digits that are read as it, and with an
    exponent if it is below `1e-6` or not below `1e21`. An integer below `2^53` has all its
    digits. -/
def ofFloat (negative : Bool) (x : ℚ) : Number :=
  if x.den = 1 ∧ x < 2^53 then integer negative x.num.natAbs
  else
    let (c,q) := binary64.shortest x
    let exponent := ((Nat.toDigits 10 c).length : Int) - 1 + q
    if -6 ≤ exponent ∧ exponent < 21 then fixed negative c q else scientific negative c q

/-- The number as a program has it once it has read it as a `float64`; none where it is out
    of range. -/
def float64 (n : Number) : Option Number := (binary64.round n.magnitude).map (ofFloat n.negative)

@[simp] theorem integer_negative (negative : Bool) (n : Nat) : (integer negative n).negative = negative := by
  cases negative with
  | false => simp [integer,Number.negative]
  | true =>
    unfold integer
    simp only [↓reduceIte]
    split_ifs with zero
    · rfl
    · simp only [Number.negative,decide_eq_true_eq]
      omega

@[simp] theorem integer_magnitude (negative : Bool) (n : Nat) : (integer negative n).magnitude = n := by
  cases negative with
  | false => simp [integer,magnitude]
  | true =>
    unfold integer
    simp only [↓reduceIte]
    split_ifs with zero
    · simp [zero,magnitude,negZero]
    · simp [magnitude]

@[simp] theorem fixed_negative (negative : Bool) (c : Nat) (q : Int) : (fixed negative c q).negative = negative := by
  unfold fixed
  split_ifs
  · exact integer_negative ..
  · rfl

theorem divided (c k : Nat) : ((c / 10^k : Nat) : ℚ) + ((c % 10^k : Nat) : ℚ) / 10^k = c / 10^k := by
  have whole : (c : ℚ) = 10^k * ((c / 10^k : Nat) : ℚ) + ((c % 10^k : Nat) : ℚ) := by
    exact_mod_cast (Nat.div_add_mod c (10^k)).symm
  have positive : (10 : ℚ)^k ≠ 0 := by positivity
  field_simp
  linarith

theorem fixed_magnitude (negative : Bool) (c : Nat) (q : Int) : (fixed negative c q).magnitude = c * 10^q := by
  unfold fixed
  split_ifs with before
  · obtain ⟨k,rfl⟩ := Int.eq_ofNat_of_zero_le before
    simp
  · obtain ⟨k,negated⟩ := Int.eq_ofNat_of_zero_le (show 0 ≤ -q by omega)
    obtain rfl : q = -k := by omega
    simp only [magnitude,neg_neg,Int.toNat_natCast,divided,Option.getD_none,zpow_zero,mul_one,zpow_neg,zpow_natCast]
    rfl

theorem scientific_magnitude (negative : Bool) (c : Nat) (q : Int) : (scientific negative c q).magnitude = c * 10^q := by
  have ten : (10 : ℚ) ≠ 0 := by decide
  simp only [scientific,magnitude,divided,Option.getD_some]
  rw [zpow_add₀ ten,zpow_natCast]
  field_simp

theorem ofFloat_negative (negative : Bool) (x : ℚ) : (ofFloat negative x).negative = negative := by
  unfold ofFloat
  dsimp only
  split_ifs
  · exact integer_negative ..
  · exact fixed_negative ..
  · rfl

/-- What is written is read as the same number. -/
theorem round_ofFloat (negative : Bool) {x : ℚ} (positive : 0 ≤ x) (rounded : binary64.round x = some x) :
    binary64.round (ofFloat negative x).magnitude = some x := by
  have read := round_shortest rounded
  unfold ofFloat
  dsimp only
  split_ifs with whole
  · have same : ((x.num.natAbs : Nat) : ℚ) = x := by
      have num : ((x.num.natAbs : Nat) : Int) = x.num := Int.natAbs_of_nonneg (Rat.num_nonneg.mpr positive)
      rw [← Int.cast_natCast,num]
      exact Rat.coe_int_num_of_den_eq_one whole.1
    rw [integer_magnitude,same,rounded]
  · rw [fixed_magnitude,read]
  · rw [scientific_magnitude,read]

theorem magnitude_nonneg (n : Number) : 0 ≤ n.magnitude := by
  cases n with
  | int n => exact Nat.cast_nonneg _
  | decimal d => exact mul_nonneg (by positivity) (zpow_nonneg (by decide) _)

/-- A number that was read is read as the same number again. -/
theorem float64_float64 {n m : Number} (read : n.float64 = some m) : m.float64 = some m := by
  obtain ⟨x,rounded,rfl⟩ := Option.map_eq_some_iff.mp read
  have again := round_ofFloat n.negative (round_nonneg rounded) (round_round n.magnitude_nonneg rounded)
  rw [float64,again,Option.map_some,ofFloat_negative]

/-- Integers below `2^53` are read as they are. -/
theorem float64_int {n : Int} (small : n.natAbs < 2^53) : (Number.int n).float64 = some (.int n) := by
  have rounded : binary64.round ((n.natAbs : Nat) : ℚ) = some (n.natAbs : ℚ) := round_natCast small
  have below : ((n.natAbs : Nat) : ℚ) < 2^53 := by exact_mod_cast small
  rw [float64,magnitude,rounded,Option.map_some,ofFloat,if_pos ⟨Rat.den_natCast _,below⟩,Rat.num_natCast]
  unfold integer Number.negative
  split_ifs with negative zero
  · simp only [decide_eq_true_eq,Int.natAbs_natCast] at negative zero
    omega
  · simp only [decide_eq_true_eq] at negative
    simp only [Int.natAbs_natCast,Option.some.injEq,Number.int.injEq]
    omega
  · simp only [decide_eq_true_eq] at negative
    simp only [Int.natAbs_natCast,Option.some.injEq,Number.int.injEq]
    omega

end Number

example : (Number.int 9007199254740993).float64 = some (.int 9007199254740992) := by decide +kernel

inductive Json where
  | null
  | bool (b : Bool)
  | num (n : Number)
  | str (s : String)
  | arr (items : List Json)
  | obj (members : List (String × Json))

mutual
def decEq : (a b : Json) → Decidable (a = b)
  | .null, .null => isTrue rfl
  | .bool a, .bool b => decidable_of_iff (a = b) (by simp)
  | .num a, .num b => decidable_of_iff (a = b) (by simp)
  | .str a, .str b => decidable_of_iff (a = b) (by simp)
  | .arr a, .arr b => @decidable_of_iff _ (a = b) (by simp) (decEqItems a b)
  | .obj a, .obj b => @decidable_of_iff _ (a = b) (by simp) (decEqMembers a b)
  | .null, .bool _ | .null, .num _ | .null, .str _ | .null, .arr _ | .null, .obj _ => isFalse (by simp)
  | .bool _, .null | .bool _, .num _ | .bool _, .str _ | .bool _, .arr _ | .bool _, .obj _ => isFalse (by simp)
  | .num _, .null | .num _, .bool _ | .num _, .str _ | .num _, .arr _ | .num _, .obj _ => isFalse (by simp)
  | .str _, .null | .str _, .bool _ | .str _, .num _ | .str _, .arr _ | .str _, .obj _ => isFalse (by simp)
  | .arr _, .null | .arr _, .bool _ | .arr _, .num _ | .arr _, .str _ | .arr _, .obj _ => isFalse (by simp)
  | .obj _, .null | .obj _, .bool _ | .obj _, .num _ | .obj _, .str _ | .obj _, .arr _ => isFalse (by simp)
def decEqItems : (a b : List Json) → Decidable (a = b)
  | [], [] => isTrue rfl
  | [], _ :: _ => isFalse (by simp)
  | _ :: _, [] => isFalse (by simp)
  | a :: as, b :: bs =>
    match decEq a b, decEqItems as bs with
    | isTrue h, isTrue t => isTrue (by rw [h,t])
    | isFalse h, _ => isFalse (by simp [h])
    | _, isFalse t => isFalse (by simp [t])
def decEqMembers : (a b : List (String × Json)) → Decidable (a = b)
  | [], [] => isTrue rfl
  | [], _ :: _ => isFalse (by simp)
  | _ :: _, [] => isFalse (by simp)
  | (k,a) :: as, (l,b) :: bs =>
    match decEq a b, decEqMembers as bs with
    | isTrue h, isTrue t => decidable_of_iff (k = l) (by simp [h,t])
    | isFalse h, _ => isFalse (by simp [h])
    | _, isFalse t => isFalse (by simp [t])
end

instance : DecidableEq Json := decEq

/-! ## Decoded values -/

mutual
/-- Every number is a `float64` as it is written, and every object a finite map with its
    members in key order. -/
def Normalized : Json → Prop
  | .num n => n.float64 = some n
  | .arr items => NormalItems items
  | .obj members => Sorted members ∧ NormalMembers members
  | _ => True
def NormalItems : List Json → Prop
  | [] => True
  | j :: rest => Normalized j ∧ NormalItems rest
def NormalMembers : List (String × Json) → Prop
  | [] => True
  | (_,j) :: rest => Normalized j ∧ NormalMembers rest
end

mutual
/-- The value that a document denotes; a number that is out of range is left out. -/
def denoted : Json → Json
  | .num n => (n.float64.map Json.num).getD .null
  | .arr items => .arr (normItems items)
  | .obj members => .obj (normMembers members)
  | j => j
def normItems : List Json → List Json
  | [] => []
  | j :: rest => denoted j :: normItems rest
def normMembers : List (String × Json) → List (String × Json)
  | [] => []
  | (k,j) :: rest => addEntry k (denoted j) (normMembers rest)
end

theorem normalItems_iff {items : List Json} : NormalItems items ↔ ∀ j ∈ items, Normalized j := by
  induction items with
  | nil => simp [NormalItems]
  | cons j rest ih => simp [NormalItems,ih]

theorem normalMembers_iff {members : List (String × Json)} :
    NormalMembers members ↔ ∀ e ∈ members, Normalized e.2 := by
  induction members with
  | nil => simp [NormalMembers]
  | cons e rest ih =>
    obtain ⟨k,j⟩ := e
    simp [NormalMembers,ih]

theorem normItems_eq (items : List Json) : normItems items = items.map denoted := by
  induction items with
  | nil => rfl
  | cons j rest ih => simp [normItems,ih]

theorem normMembers_eq (members : List (String × Json)) :
    normMembers members = sortEntries (members.map (fun e => (e.1,denoted e.2))) := by
  induction members with
  | nil => rfl
  | cons e rest ih =>
    obtain ⟨k,j⟩ := e
    simp [normMembers,sortEntries,ih]

mutual
theorem norm_normal : (j : Json) → Normalized (denoted j)
  | .null => by simp [denoted,Normalized]
  | .bool _ => by simp [denoted,Normalized]
  | .num n => by
    cases read : n.float64 with
    | none => simp [denoted,read,Normalized]
    | some m => simpa [denoted,read,Normalized] using Number.float64_float64 read
  | .str _ => by simp [denoted,Normalized]
  | .arr items => by
    simp only [denoted,Normalized]
    exact normItems_normal items
  | .obj members => by
    simp only [denoted,Normalized]
    refine ⟨?_,normMembers_normal members⟩
    rw [normMembers_eq]
    exact sortEntries_sorted _
theorem normItems_normal : (items : List Json) → NormalItems (normItems items)
  | [] => by simp [normItems,NormalItems]
  | j :: rest => by
    simp only [normItems,NormalItems]
    exact ⟨norm_normal j,normItems_normal rest⟩
theorem normMembers_normal : (members : List (String × Json)) → NormalMembers (normMembers members)
  | [] => by simp [normMembers,NormalMembers]
  | (k,j) :: rest => by
    have first := norm_normal j
    have others := normalMembers_iff.mp (normMembers_normal rest)
    refine normalMembers_iff.mpr ?_
    intro e member
    rcases mem_addEntry member with rfl | old
    · exact first
    · exact others e old
end

mutual
theorem norm_of_normal : (j : Json) → Normalized j → denoted j = j
  | .null, _ => rfl
  | .bool _, _ => rfl
  | .num n, normal => by
    have read : n.float64 = some n := by simpa [Normalized] using normal
    rw [denoted,read,Option.map_some,Option.getD_some]
  | .str _, _ => rfl
  | .arr items, normal => by
    rw [denoted,normItems_of_normal items (by simpa [Normalized] using normal)]
  | .obj members, normal => by
    obtain ⟨sorted,inner⟩ : Sorted members ∧ NormalMembers members := by simpa [Normalized] using normal
    rw [denoted,normMembers_of_normal members sorted inner]
theorem normItems_of_normal : (items : List Json) → NormalItems items → normItems items = items
  | [], _ => rfl
  | j :: rest, normal => by
    obtain ⟨first,others⟩ : Normalized j ∧ NormalItems rest := by simpa [NormalItems] using normal
    rw [normItems,norm_of_normal j first,normItems_of_normal rest others]
theorem normMembers_of_normal : (members : List (String × Json)) → Sorted members → NormalMembers members →
    normMembers members = members
  | [], _, _ => rfl
  | (k,j) :: rest, sorted, normal => by
    obtain ⟨first,others⟩ : Normalized j ∧ NormalMembers rest := by simpa [NormalMembers] using normal
    obtain ⟨below,tail⟩ := sorted_cons.mp sorted
    rw [normMembers,norm_of_normal j first,normMembers_of_normal rest tail others,addEntry_first below]
end

theorem denoted_int {n : Int} (small : n.natAbs < 2^53) : denoted (.num (.int n)) = .num (.int n) := by
  rw [denoted,Number.float64_int small,Option.map_some,Option.getD_some]

/-- A number that a `float64` holds, as a program writes it. -/
abbrev Float64 := { n : Number // n.float64 = some n }

mutual
/-- Some number of a document is out of range. -/
def outOfRange : Json → Bool
  | .num n => n.float64.isNone
  | .arr items => itemsOutOfRange items
  | .obj members => membersOutOfRange members
  | _ => false
def itemsOutOfRange : List Json → Bool
  | [] => false
  | j :: rest => outOfRange j || itemsOutOfRange rest
def membersOutOfRange : List (String × Json) → Bool
  | [] => false
  | (_,j) :: rest => outOfRange j || membersOutOfRange rest
end

mutual
theorem inRange_of_normal : (j : Json) → Normalized j → outOfRange j = false
  | .null, _ => rfl
  | .bool _, _ => rfl
  | .num n, normal => by
    have read : n.float64 = some n := by simpa [Normalized] using normal
    rw [outOfRange,read]
    rfl
  | .str _, _ => rfl
  | .arr items, normal => by
    rw [outOfRange,itemsInRange_of_normal items (by simpa [Normalized] using normal)]
  | .obj members, normal => by
    obtain ⟨-,inner⟩ : Sorted members ∧ NormalMembers members := by simpa [Normalized] using normal
    rw [outOfRange,membersInRange_of_normal members inner]
theorem itemsInRange_of_normal : (items : List Json) → NormalItems items → itemsOutOfRange items = false
  | [], _ => rfl
  | j :: rest, normal => by
    obtain ⟨first,others⟩ : Normalized j ∧ NormalItems rest := by simpa [NormalItems] using normal
    rw [itemsOutOfRange,inRange_of_normal j first,itemsInRange_of_normal rest others,Bool.or_self]
theorem membersInRange_of_normal : (members : List (String × Json)) → NormalMembers members →
    membersOutOfRange members = false
  | [], _ => rfl
  | (k,j) :: rest, normal => by
    obtain ⟨first,others⟩ : Normalized j ∧ NormalMembers rest := by simpa [NormalMembers] using normal
    rw [membersOutOfRange,inRange_of_normal j first,membersInRange_of_normal rest others,Bool.or_self]
end

theorem normalized_iff (j : Json) : Normalized j ↔ denoted j = j :=
  ⟨norm_of_normal j,fun same => same ▸ norm_normal j⟩

instance (j : Json) : Decidable (Normalized j) := decidable_of_iff _ (normalized_iff j).symm

/-! ## What documents say -/

/-- What a document says: a number has a sign and a magnitude, and an object has each key
    once. -/
inductive Meaning where
  | null
  | bool (b : Bool)
  | num (negative : Bool) (magnitude : ℚ)
  | str (s : String)
  | arr (items : List Meaning)
  | obj (members : List (String × Meaning))

mutual
def meaning : Json → Meaning
  | .null => .null
  | .bool b => .bool b
  | .num n => .num n.negative n.magnitude
  | .str s => .str s
  | .arr items => .arr (itemMeanings items)
  | .obj members => .obj (memberMeanings members)
def itemMeanings : List Json → List Meaning
  | [] => []
  | j :: rest => meaning j :: itemMeanings rest
def memberMeanings : List (String × Json) → List (String × Meaning)
  | [] => []
  | (k,j) :: rest => addEntry k (meaning j) (memberMeanings rest)
end

/-- The numbers of a document are such that a program that decodes it keeps them. -/
def Representable (j : Json) : Prop := meaning (denoted j) = meaning j

mutual
/-- The value that a program decodes. -/
def decoded : Meaning → Json
  | .null => .null
  | .bool b => .bool b
  | .num negative magnitude => ((binary64.round magnitude).map (fun x => Json.num (.ofFloat negative x))).getD .null
  | .str s => .str s
  | .arr items => .arr (decodedItems items)
  | .obj members => .obj (decodedMembers members)
def decodedItems : List Meaning → List Json
  | [] => []
  | m :: rest => decoded m :: decodedItems rest
def decodedMembers : List (String × Meaning) → List (String × Json)
  | [] => []
  | (k,m) :: rest => (k,decoded m) :: decodedMembers rest
end

theorem decodedMembers_eq (members : List (String × Meaning)) :
    decodedMembers members = members.map (fun e => (e.1,decoded e.2)) := by
  induction members with
  | nil => rfl
  | cons e rest ih => rw [decodedMembers,ih,List.map_cons]

mutual
theorem denoted_eq : (j : Json) → denoted j = decoded (meaning j)
  | .null => rfl
  | .bool _ => rfl
  | .num n => by
    rw [denoted,meaning,decoded,Number.float64,Option.map_map]
    rfl
  | .str _ => rfl
  | .arr items => by rw [denoted,meaning,decoded,normItems_decoded items]
  | .obj members => by rw [denoted,meaning,decoded,normMembers_decoded members]
theorem normItems_decoded : (items : List Json) → normItems items = decodedItems (itemMeanings items)
  | [] => rfl
  | j :: rest => by rw [normItems,itemMeanings,decodedItems,denoted_eq j,normItems_decoded rest]
theorem normMembers_decoded : (members : List (String × Json)) → normMembers members = decodedMembers (memberMeanings members)
  | [] => rfl
  | (k,j) :: rest => by
    rw [normMembers,memberMeanings,decodedMembers_eq,map_addEntry,← decodedMembers_eq,← normMembers_decoded rest,
      denoted_eq j]
end

/-- Documents that say the same are decoded to the same value. -/
theorem denoted_of_meaning {j k : Json} (same : meaning j = meaning k) : denoted j = denoted k := by
  rw [denoted_eq,denoted_eq,same]

/-- A decoded JSON value. -/
@[ext] structure Value where
  json : Json
  normal : Normalized json

namespace Value

instance : DecidableEq Value := fun a b => decidable_of_iff (a.json = b.json) Value.ext_iff.symm

/-- The value a document denotes. -/
def ofJson (j : Json) : Value := ⟨denoted j,norm_normal j⟩

@[simp] theorem ofJson_json (v : Value) : ofJson v.json = v := Value.ext (norm_of_normal v.json v.normal)

def null : Value := ⟨.null,trivial⟩
def str (s : String) : Value := ⟨.str s,trivial⟩
def list (items : List Value) : Value :=
  ⟨.arr (items.map json),normalItems_iff.mpr (fun _ member => by
    obtain ⟨v,-,rfl⟩ := List.mem_map.mp member; exact v.normal)⟩
def dict (m : Dict String Value) : Value :=
  ⟨.obj (m.entries.map (fun e => (e.1,e.2.json))),sorted_map (fun _ v => v.json) m.sorted,
    normalMembers_iff.mpr (fun _ member => by
      obtain ⟨e,-,rfl⟩ := List.mem_map.mp member; exact e.2.normal)⟩

/-- The string that a value is, if it is one. -/
def asString? (v : Value) : Option String :=
  match v.json with
  | .str s => some s
  | _ => none

/-- The items of a value that is a list. -/
def asList? (v : Value) : Option (List Value) :=
  match v.json with
  | .arr items => some (items.map ofJson)
  | _ => none

/-- The map that a value is, if it is an object. -/
def asDict? (v : Value) : Option (Dict String Value) :=
  match v.json with
  | .obj members => some (Dict.ofEntries (members.map (fun e => (e.1,ofJson e.2))))
  | _ => none

@[simp] theorem json_str (s : String) : (str s).json = .str s := rfl
@[simp] theorem json_list (items : List Value) : (list items).json = .arr (items.map json) := rfl
@[simp] theorem json_dict (m : Dict String Value) :
    (dict m).json = .obj (m.entries.map (fun e => (e.1,e.2.json))) := rfl

@[simp] theorem asString?_str (s : String) : (str s).asString? = some s := rfl
@[simp] theorem asList?_list (items : List Value) : (list items).asList? = some items := by
  simp [asList?,List.map_map,Function.comp_def]
@[simp] theorem asDict?_dict (m : Dict String Value) : (dict m).asDict? = some m := by
  simp [asDict?,List.map_map,Function.comp_def]

theorem asString?_eq_some {v : Value} {s : String} : v.asString? = some s ↔ v = str s := by
  constructor
  · intro found
    obtain ⟨j,normal⟩ := v
    cases j <;> simp [asString?] at found
    exact Value.ext (by simp [found])
  · rintro rfl; rfl

theorem asDict?_eq_some {v : Value} {m : Dict String Value} : v.asDict? = some m ↔ v = dict m := by
  constructor
  · intro found
    obtain ⟨j,normal⟩ := v
    cases j <;> simp [asDict?] at found
    rename_i members
    obtain ⟨sorted,inner⟩ : Sorted members ∧ NormalMembers members := normal
    have same : ∀ e ∈ members, (e.1,denoted e.2) = e := by
      intro e member
      rw [norm_of_normal e.2 (normalMembers_iff.mp inner e member)]
    have entries : m.entries = members.map (fun e => (e.1,ofJson e.2)) := by
      rw [← found]
      exact sortEntries_of_sorted (sorted_map (fun _ j => ofJson j) sorted)
    apply Value.ext
    rw [json_dict,entries]
    simpa [List.map_map,Function.comp_def,ofJson] using (List.map_congr_left same).symm
  · rintro rfl; exact asDict?_dict m

end Value
end Zasper.JsonValues
