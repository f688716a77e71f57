import Mathlib.Algebra.Group.Int.Defs
import Mathlib.Data.List.Nodup
import Mathlib.Data.List.Pairwise
import Zasper.JsonText

/-!
# Typed values as JSON

How a typed program writes its values as JSON and reads them back. A `Codec` says
what the zero value of a type is, how a value is written, and how a JSON value is
decoded over an older value. Decoding never stops: a JSON value of the wrong type
leaves what it should have replaced as it was, and the mismatch is reported when
everything else has been decoded (`Decoded.mismatch`). The members of an object
go to the fields of a structure by their names, exactly or else up to letter case;
members without a field are dropped.

Nil lists and maps are `none`; they are written as `null`.
-/
namespace Zasper.Structs
open Zasper.Maps Zasper.JsonValues Zasper.JsonText
set_option linter.unusedSimpArgs false
universe u v

/-- A value as far as it could be decoded, and whether a JSON value of the wrong
    type was met on the way. -/
structure Decoded (α : Type u) where
  value : α
  mismatch : Bool
deriving DecidableEq

structure Codec (α : Type u) where
  zero : α
  encode : α → Json
  /-- Decodes a JSON value over an older value. -/
  decode : α → Json → Decoded α

/-- A document as it is written, or as it is written again by a program that has
    decoded it: with the members of its objects in key order. -/
def Rewriting (w : Json → Json) : Prop := w = id ∨ w = denoted

/-- What is written, and then written again by `w`, is read as `f` of it. -/
def Codec.RereadsBy {α : Type u} (c : Codec α) (w : Json → Json) (f : α → Decoded α) : Prop :=
  ∀ a, c.decode c.zero (w (c.encode a)) = f a

/-- What is written is read back as `f` of it, without a mismatch. -/
abbrev Codec.Rereads {α : Type u} (c : Codec α) (f : α → α) : Prop := c.RereadsBy id (fun a => ⟨f a,false⟩)

/-- What is written is read back, also where it has been written again in between. -/
def Codec.Inverse {α : Type u} (c : Codec α) : Prop := ∀ w, Rewriting w → c.RereadsBy w (fun a => ⟨a,false⟩)

theorem Codec.Inverse.rereads {α : Type u} {c : Codec α} (inverse : c.Inverse) : c.Rereads id := inverse id (.inl rfl)

theorem Codec.Inverse.inj {α : Type u} {c : Codec α} (inverse : c.Inverse) {a b : α} (same : c.encode a = c.encode b) :
    a = b := by
  have first := inverse id (.inl rfl) a
  have second := inverse id (.inl rfl) b
  rw [same] at first
  exact (congrArg Decoded.value first).symm.trans (congrArg Decoded.value second)

inductive UnmarshalError where
  | syntaxError
  | mismatch
deriving DecidableEq

/-- Decodes what was parsed over an older value. What is no JSON leaves the old
    value as it was. -/
def Codec.decodeParsed {α : Type u} (c : Codec α) (parsed : Option Json) (old : α) : α × Option UnmarshalError :=
  match parsed with
  | none => (old,some .syntaxError)
  | some j =>
    let d := c.decode old j
    (d.value,if d.mismatch then some .mismatch else none)

/-- Decodes a document over an older value. -/
def Codec.unmarshal {α : Type u} (c : Codec α) (bytes : List UInt8) (old : α) : α × Option UnmarshalError :=
  c.decodeParsed (JsonText.unmarshal bytes) old

/-- Decodes the value that a stream begins with over an older value. -/
def Codec.decodeStream {α : Type u} (c : Codec α) (bytes : List UInt8) (old : α) : α × Option UnmarshalError :=
  c.decodeParsed (unmarshalStart bytes) old

/-! ## Types without fields -/

def text : Codec String where
  zero := ""
  encode := .str
  decode old
    | .str s => ⟨s,false⟩
    | .null => ⟨old,false⟩
    | _ => ⟨old,true⟩

/-- Machine integers; a number that is no integer or out of range is a mismatch. -/
def int : Codec Int64 where
  zero := 0
  encode i := .num (.int i.toInt)
  decode old
    | .num n =>
      match n.asInt? with
      | some n => if -2^63 ≤ n ∧ n < 2^63 then ⟨Int64.ofInt n,false⟩ else ⟨old,true⟩
      | none => ⟨old,true⟩
    | .null => ⟨old,false⟩
    | _ => ⟨old,true⟩

/-- Numbers of two bytes; a number that is no integer, out of range or written with a minus
    is a mismatch. -/
def uint16 : Codec UInt16 where
  zero := 0
  encode i := .num (.int i.toNat)
  decode old
    | .num (.int n) => if 0 ≤ n ∧ n < 2^16 then ⟨UInt16.ofNat n.toNat,false⟩ else ⟨old,true⟩
    | .null => ⟨old,false⟩
    | _ => ⟨old,true⟩

/-- A value of any type. A number that is out of range is a mismatch and leaves the older
    value, or null inside a list or a map. -/
def any : Codec Value where
  zero := .null
  encode v := v.json
  decode old
    | .num n => if outOfRange (.num n) then ⟨old,true⟩ else ⟨.ofJson (.num n),false⟩
    | j => ⟨.ofJson j,outOfRange j⟩

/-- The entries of a map, none for nil. -/
def entriesOf {Item : Type u} (m : Option (Dict String Item)) : List (String × Item) := (m.map Dict.entries).getD []

/-- Maps from strings to values of any type. -/
def mapping : Codec (Option (Dict String Value)) where
  zero := none
  encode
    | none => .null
    | some m => (Value.dict m).json
  decode old
    | .null => ⟨none,false⟩
    | .obj members => ⟨some (.ofEntries (entriesOf old ++ members.map (fun e => (e.1,.ofJson e.2)))),membersOutOfRange members⟩
    | _ => ⟨old,true⟩

/-- Lists of one type; each item is decoded on its own. -/
def list {α : Type u} (c : Codec α) : Codec (Option (List α)) where
  zero := none
  encode
    | none => .null
    | some items => .arr (items.map c.encode)
  decode old
    | .null => ⟨none,false⟩
    | .arr items => ⟨some (items.map (fun j => (c.decode c.zero j).value)),
        items.any (fun j => (c.decode c.zero j).mismatch)⟩
    | _ => ⟨old,true⟩

theorem Rewriting.normal {w : Json → Json} (rewriting : Rewriting w) {j : Json} (normal : Normalized j) : w j = j := by
  rcases rewriting with rfl | rfl
  · rfl
  · exact norm_of_normal j normal

theorem Rewriting.arr {w : Json → Json} (rewriting : Rewriting w) (items : List Json) :
    w (.arr items) = .arr (items.map w) := by
  rcases rewriting with rfl | rfl
  · simp
  · simp [denoted,normItems_eq]

/-- The members of an object are written again, in any order. -/
theorem Rewriting.obj {w : Json → Json} (rewriting : Rewriting w) {members : List (String × Json)}
    (distinct : (members.map Prod.fst).Nodup) :
    ∃ again, w (.obj members) = .obj again ∧ again.Perm (members.map (fun e => (e.1,w e.2))) := by
  rcases rewriting with rfl | rfl
  · exact ⟨members,rfl,by simp⟩
  · refine ⟨_,by simp [denoted,normMembers_eq],sortEntries_perm ?_⟩
    simpa [List.map_map,Function.comp_def] using distinct

theorem text_inverse : text.Inverse := by
  intro w rewriting s
  rw [rewriting.normal (by simp [text,Normalized])]
  rfl
theorem int_rereads : int.Rereads id := by
  intro i
  have low := i.le_toInt
  have high := i.toInt_lt
  simp only [int,Number.asInt?,low,high,and_self,↓reduceIte,Int64.ofInt_toInt,id_eq]
theorem any_normal (old v : Value) : any.decode old v.json = ⟨v,false⟩ := by
  have inRange := inRange_of_normal v.json v.normal
  have same := Value.ofJson_json v
  cases json : v.json <;> simp only [json] at inRange same <;>
    simp only [any,inRange,same,Bool.false_eq_true,↓reduceIte]
theorem any_decode (j : Json) : any.decode .null j = ⟨.ofJson j,outOfRange j⟩ := by
  cases j with
  | num n =>
    cases read : n.float64 <;> simp [any,outOfRange,read,Value.null,Value.ofJson,denoted]
  | _ => rfl
theorem any_inverse : any.Inverse := by
  intro w rewriting v
  have same : w (any.encode v) = v.json := rewriting.normal v.normal
  rw [same,any_normal]
theorem mapping_inverse : mapping.Inverse := by
  intro w rewriting m
  cases m with
  | none =>
    rw [rewriting.normal (by simp [mapping,Normalized])]
    rfl
  | some m =>
    have same : w (mapping.encode (some m)) = (Value.dict m).json := rewriting.normal (Value.dict m).normal
    have inRange : membersOutOfRange (m.entries.map (fun e => (e.1,e.2.json))) = false :=
      inRange_of_normal _ (Value.dict m).normal
    rw [same]
    simp [mapping,entriesOf,inRange,List.map_map,Function.comp_def]
theorem list_rereadsBy {α : Type u} {c : Codec α} {w : Json → Json} (rewriting : Rewriting w) {f : α → Decoded α}
    (rereads : c.RereadsBy w f) :
    (list c).RereadsBy w (fun items => ⟨items.map (List.map (fun a => (f a).value)),
      (items.getD []).any (fun a => (f a).mismatch)⟩) := by
  have item (a : α) : c.decode c.zero (w (c.encode a)) = f a := rereads a
  intro items
  cases items with
  | none =>
    rw [rewriting.normal (by simp [list,Normalized])]
    rfl
  | some items =>
    simp only [list]
    rw [rewriting.arr]
    simp [List.map_map,Function.comp_def,item,List.any_map]
theorem list_rereads {α : Type u} {c : Codec α} {f : α → α} (rereads : c.Rereads f) :
    (list c).Rereads (fun items => items.map (List.map f)) := by
  intro items
  have none : ((items.getD []).any fun _ => false) = false := by simp
  rw [← none]
  exact list_rereadsBy (.inl rfl) rereads items
theorem list_inverse {α : Type u} {c : Codec α} (inverse : c.Inverse) : (list c).Inverse := by
  intro w rewriting items
  have read := list_rereadsBy rewriting (inverse w rewriting) items
  have none : ((items.getD []).any fun _ => false) = false := by simp
  have same : items.map (List.map (fun a => a)) = items := by cases items <;> simp
  refine read.trans ?_
  show Decoded.mk (items.map (List.map (fun a => a))) ((items.getD []).any (fun _ => false)) = ⟨items,false⟩
  rw [same,none]

theorem unmarshal_marshal {α : Type u} {c : Codec α} {f : α → α} (rereads : c.Rereads f) (a : α) :
    c.unmarshal (marshal (c.encode a)) c.zero = (f a,none) := by
  simp [Codec.unmarshal,Codec.decodeParsed,show c.decode c.zero (c.encode a) = ⟨f a,false⟩ from rereads a]
theorem unmarshal_marshalIndent {α : Type u} {c : Codec α} {f : α → α} (rereads : c.Rereads f) (a : α) :
    c.unmarshal (marshalIndent (c.encode a)) c.zero = (f a,none) := by
  simp [Codec.unmarshal,Codec.decodeParsed,show c.decode c.zero (c.encode a) = ⟨f a,false⟩ from rereads a]
/-- A document that a program has decoded and written again. -/
theorem unmarshal_marshal_denoted {α : Type u} {c : Codec α} {f : α → Decoded α} (rereads : c.RereadsBy denoted f) (a : α) :
    c.unmarshal (marshal (denoted (c.encode a))) c.zero = ((f a).value,if (f a).mismatch then some .mismatch else none) := by
  simp [Codec.unmarshal,Codec.decodeParsed,show c.decode c.zero (denoted (c.encode a)) = f a from rereads a]

theorem decodeStream_marshal {α : Type u} {c : Codec α} {f : α → α} (rereads : c.Rereads f) (a : α) :
    c.decodeStream (marshal (c.encode a)) c.zero = (f a,none) := by
  simp [Codec.decodeStream,Codec.decodeParsed,show c.decode c.zero (c.encode a) = ⟨f a,false⟩ from rereads a]

theorem decodeStream_encodeIndent {α : Type u} {c : Codec α} {f : α → α} (rereads : c.Rereads f) (a : α) :
    c.decodeStream (encodeIndent (c.encode a)) c.zero = (f a,none) := by
  simp [Codec.decodeStream,Codec.decodeParsed,show c.decode c.zero (c.encode a) = ⟨f a,false⟩ from rereads a]

/-! ## Structures -/

structure StructField (σ : Type u) where
  name : String
  /-- Whether the field is left out when it is written. -/
  omitted : σ → Bool
  encode : σ → Json
  decode : σ → Json → Decoded σ

/-- Decodes what `get` reads and `set` writes. -/
def decodeVia {σ : Type u} {α : Type v} (c : Codec α) (get : σ → α) (set : σ → α → σ) (s : σ) (j : Json) : Decoded σ :=
  let d := c.decode (get s) j
  ⟨set s d.value,d.mismatch⟩

/-- The field that `get` reads and `set` writes. -/
def field {σ : Type u} {α : Type v} (name : String) (c : Codec α) (get : σ → α) (set : σ → α → σ) : StructField σ where
  name := name
  omitted _ := false
  encode s := c.encode (get s)
  decode := decodeVia c get set

/-- A field that is left out where it is empty. -/
def fieldOmitEmpty {σ : Type u} {α : Type v} (name : String) (c : Codec α) (empty : α → Bool) (get : σ → α)
    (set : σ → α → σ) : StructField σ :=
  { field name c get set with omitted := fun s => empty (get s) }

/-- Letters up to case. Two other letters count as ASCII letters here: the long s
    and the Kelvin sign. -/
def foldLetter (c : Char) : Char :=
  if c.val = 0x17F then 's' else if c.val = 0x212A then 'k' else c.toLower

def foldName (name : String) : List Char := name.toList.map foldLetter

section
variable {σ : Type u} {α : Type v}

/-- The field that a member of an object goes to. -/
def fieldFor (fields : List (StructField σ)) (key : String) : Option (StructField σ) :=
  match fields.find? (fun f => f.name = key) with
  | some f => some f
  | none => fields.find? (fun f => foldName f.name = foldName key)

def decodeMember (fields : List (StructField σ)) (before : Decoded σ) (member : String × Json) : Decoded σ :=
  match fieldFor fields member.1 with
  | none => before
  | some f =>
    let d := f.decode before.value member.2
    ⟨d.value,before.mismatch || d.mismatch⟩

def decodeStruct (fields : List (StructField σ)) (old : σ) : Json → Decoded σ
  | .null => ⟨old,false⟩
  | .obj members => members.foldl (decodeMember fields) ⟨old,false⟩
  | _ => ⟨old,true⟩

def encodeStruct (fields : List (StructField σ)) (s : σ) : Json :=
  .obj ((fields.filter (fun f => !f.omitted s)).map (fun f => (f.name,f.encode s)))

def struct (zero : σ) (fields : List (StructField σ)) : Codec σ where
  zero := zero
  encode := encodeStruct fields
  decode := decodeStruct fields

/-- What reading a written field back adds to what was decoded before. -/
def rereadField (w : Json → Json) (t : σ) (before : Decoded σ) (f : StructField σ) : Decoded σ :=
  if f.omitted t then before
  else
    let d := f.decode before.value (w (f.encode t))
    ⟨d.value,before.mismatch || d.mismatch⟩

/-- Decoding two fields in either order gives the same. -/
def Apart (f g : StructField σ) : Prop := ∀ s j k,
  (g.decode (f.decode s j).value k).value = (f.decode (g.decode s k).value j).value ∧
    (g.decode (f.decode s j).value k).mismatch = (g.decode s k).mismatch ∧
    (f.decode (g.decode s k).value j).mismatch = (f.decode s j).mismatch

theorem Apart.symm {f g : StructField σ} (apart : Apart f g) : Apart g f := by
  intro s j k
  obtain ⟨value,second,first⟩ := apart s k j
  exact ⟨value.symm,first,second⟩

/-- Fields that read and write different parts. The three laws hold by `simp` for the
    fields of a structure. -/
@[simp] theorem apart_field {β : Type v} {n n' : String} {c : Codec α} {c' : Codec β} {get : σ → α} {get' : σ → β}
    {set : σ → α → σ} {set' : σ → β → σ} (sets : ∀ s v v', set' (set s v) v' = set (set' s v') v)
    (keeps : ∀ s v, get' (set s v) = get' s) (keeps' : ∀ s v', get (set' s v') = get s) :
    Apart (field n c get set) (field n' c' get' set') := by
  intro s j k
  simp only [field,decodeVia,keeps,keeps']
  exact ⟨sets ..,trivial,trivial⟩

@[simp] theorem apart_omitEmpty_left {n : String} {c : Codec α} {empty : α → Bool} {get : σ → α} {set : σ → α → σ}
    {g : StructField σ} : Apart (fieldOmitEmpty n c empty get set) g ↔ Apart (field n c get set) g := Iff.rfl
@[simp] theorem apart_omitEmpty_right {n : String} {c : Codec α} {empty : α → Bool} {get : σ → α} {set : σ → α → σ}
    {g : StructField σ} : Apart g (fieldOmitEmpty n c empty get set) ↔ Apart g (field n c get set) := Iff.rfl

/-- The fields of a structure have different names and may be decoded in any order. -/
structure Fields (fields : List (StructField σ)) : Prop where
  distinct : (fields.map StructField.name).Nodup
  apart : fields.Pairwise Apart

theorem fieldFor_name {fields : List (StructField σ)} (distinct : (fields.map StructField.name).Nodup)
    {f : StructField σ} (member : f ∈ fields) : fieldFor fields f.name = some f := by
  have found : fields.find? (fun g => g.name = f.name) = some f := by
    induction fields with
    | nil => simp at member
    | cons g rest ih =>
      obtain ⟨first,others⟩ := List.nodup_cons.mp distinct
      rcases List.mem_cons.mp member with rfl | later
      · simp
      · have different : g.name ≠ f.name := fun same => first (same ▸ List.mem_map_of_mem later)
        simpa [different] using ih others later
  simp [fieldFor,found]

instance : Std.Symm (@Apart σ) := ⟨fun _ _ apart => apart.symm⟩

theorem Fields.apart_of_ne {fields : List (StructField σ)} (good : Fields fields) {f g : StructField σ}
    (inF : f ∈ fields) (inG : g ∈ fields) (different : f.name ≠ g.name) : Apart f g :=
  good.apart.forall inF inG (fun same => different (same ▸ rfl))

theorem decodeMember_comm {fields : List (StructField σ)} (good : Fields fields) {x y : String × Json}
    (own : ∀ e ∈ [x,y], ∃ f ∈ fields, f.name = e.1) (different : x.1 ≠ y.1) (z : Decoded σ) :
    decodeMember fields (decodeMember fields z x) y = decodeMember fields (decodeMember fields z y) x := by
  obtain ⟨f,inF,nameF⟩ := own x (by simp)
  obtain ⟨g,inG,nameG⟩ := own y (by simp)
  have apart : Apart f g := good.apart_of_ne inF inG (by rw [nameF,nameG]; exact different)
  obtain ⟨value,second,first⟩ := apart z.value x.2 y.2
  have foundX := fieldFor_name good.distinct inF
  have foundY := fieldFor_name good.distinct inG
  rw [nameF] at foundX
  rw [nameG] at foundY
  simp only [decodeMember,foundX,foundY,value,second,first]
  rw [Bool.or_right_comm]

/-- The members of an object may be decoded in any order. -/
theorem foldl_decodeMember_perm {fields : List (StructField σ)} (good : Fields fields)
    {again members : List (String × Json)} (perm : again.Perm members) (distinct : (members.map Prod.fst).Nodup)
    (own : ∀ e ∈ members, ∃ f ∈ fields, f.name = e.1) (before : Decoded σ) :
    again.foldl (decodeMember fields) before = members.foldl (decodeMember fields) before := by
  have nodup : (again.map Prod.fst).Nodup := (perm.map Prod.fst).nodup_iff.mpr distinct
  refine perm.foldl_eq' (fun x hx y hy z => ?_) before
  by_cases key : x.1 = y.1
  · rw [List.inj_on_of_nodup_map nodup hx hy key]
  · refine decodeMember_comm good ?_ key z
    simp [own x (perm.mem_iff.mp hx),own y (perm.mem_iff.mp hy)]

/-- A structure that is written and read back is read back field by field. -/
theorem decode_encode_fields {fields : List (StructField σ)} (good : Fields fields) {w : Json → Json}
    (rewriting : Rewriting w) (old t : σ) :
    decodeStruct fields old (w (encodeStruct fields t)) = fields.foldl (rereadField w t) ⟨old,false⟩ := by
  have names : ∀ v : StructField σ → Json,
      ((fields.filter (fun f => !f.omitted t)).map (fun f => (f.name,v f))).map Prod.fst =
        (fields.filter (fun f => !f.omitted t)).map StructField.name := by
    intro v; simp [List.map_map,Function.comp_def]
  have distinct : ((fields.filter (fun f => !f.omitted t)).map StructField.name).Nodup :=
    good.distinct.sublist (List.filter_sublist.map _)
  obtain ⟨again,same,perm⟩ := rewriting.obj ((names (fun f => f.encode t)).symm ▸ distinct)
  simp only [List.map_map,Function.comp_def] at perm
  have step : ∀ (rest : List (StructField σ)) (before : Decoded σ), (∀ f ∈ rest, f ∈ fields) →
      ((rest.filter (fun f => !f.omitted t)).map (fun f => (f.name,w (f.encode t)))).foldl
        (decodeMember fields) before = rest.foldl (rereadField w t) before := by
    intro rest
    induction rest with
    | nil => intro before _; rfl
    | cons f rest ih =>
      intro before subset
      have others : ∀ g ∈ rest, g ∈ fields := fun g member => subset g (by simp [member])
      cases omitted : f.omitted t with
      | true => simpa [omitted,rereadField] using ih before others
      | false =>
        have here : decodeMember fields before (f.name,w (f.encode t)) = rereadField w t before f := by
          simp [decodeMember,rereadField,omitted,fieldFor_name good.distinct (subset f (by simp))]
        simpa [omitted,here] using ih _ others
  rw [encodeStruct,same]
  refine (foldl_decodeMember_perm good perm ?_ ?_ _).trans (step fields _ (fun f member => member))
  · rw [names]
    exact distinct
  · intro e member
    obtain ⟨f,kept,rfl⟩ := List.mem_map.mp member
    exact ⟨f,(List.mem_filter.mp kept).1,rfl⟩

/-- An object whose members all go to fields by their exact names is decoded alike
    when its members are brought in key order. -/
theorem decodeStruct_norm {fields : List (StructField σ)} (good : Fields fields) {members : List (String × Json)}
    (distinct : (members.map Prod.fst).Nodup) (own : ∀ e ∈ members, ∃ f ∈ fields, f.name = e.1)
    (stable : ∀ e ∈ members, ∀ f ∈ fields, f.name = e.1 → ∀ s, f.decode s (denoted e.2) = f.decode s e.2) (old : σ) :
    decodeStruct fields old (denoted (.obj members)) = decodeStruct fields old (.obj members) := by
  have keys : (members.map (fun e => (e.1,denoted e.2))).map Prod.fst = members.map Prod.fst := by
    simp [List.map_map,Function.comp_def]
  obtain ⟨again,same,perm⟩ := Rewriting.obj (.inr rfl) distinct
  rw [same]
  refine (foldl_decodeMember_perm good perm (keys ▸ distinct) ?_ _).trans ?_
  · intro e member
    obtain ⟨e,given,rfl⟩ := List.mem_map.mp member
    exact own e given
  · rw [List.foldl_map]
    refine List.foldl_ext _ _ _ ?_
    intro before e given
    obtain ⟨f,inFields,name⟩ := own e given
    have found := fieldFor_name good.distinct inFields
    rw [name] at found
    simp only [decodeMember,found,stable e given f inFields name]

/-- An object that is a written structure up to the order of its members. -/
theorem members_of_norm_eq {fields : List (StructField σ)} (good : Fields fields) {members : List (String × Json)}
    (distinct : (members.map Prod.fst).Nodup) {t : σ} (same : denoted (.obj members) = denoted (encodeStruct fields t)) :
    ∀ e ∈ members, ∃ f ∈ fields, f.name = e.1 ∧ denoted e.2 = denoted (f.encode t) := by
  have written : (((fields.filter (fun f => !f.omitted t)).map (fun f => (f.name,f.encode t))).map Prod.fst).Nodup := by
    simpa [List.map_map,Function.comp_def] using good.distinct.sublist (List.filter_sublist.map StructField.name)
  obtain ⟨given,sortedGiven,permGiven⟩ := Rewriting.obj (.inr rfl) distinct
  obtain ⟨wrote,sortedWrote,permWrote⟩ := Rewriting.obj (.inr rfl) written
  rw [sortedGiven,encodeStruct,sortedWrote] at same
  intro e member
  have inGiven : (e.1,denoted e.2) ∈ given := permGiven.mem_iff.mpr (List.mem_map_of_mem member)
  rw [Json.obj.inj same] at inGiven
  obtain ⟨x,inWritten,pair⟩ := List.mem_map.mp (permWrote.mem_iff.mp inGiven)
  obtain ⟨f,inFields,rfl⟩ := List.mem_map.mp inWritten
  obtain ⟨name,value⟩ := Prod.mk.inj pair
  exact ⟨f,(List.mem_filter.mp inFields).1,name,value.symm⟩

theorem foldl_field {name : String} {c : Codec α} {w : Json → Json} {f : α → Decoded α} {get : σ → α} {set : σ → α → σ}
    (rereads : c.RereadsBy w f) {t before : σ} {mismatch : Bool} {rest : List (StructField σ)}
    (fresh : get before = c.zero) :
    (field name c get set :: rest).foldl (rereadField w t) ⟨before,mismatch⟩ =
      rest.foldl (rereadField w t) ⟨set before (f (get t)).value,mismatch || (f (get t)).mismatch⟩ := by
  have read : c.decode c.zero (w (c.encode (get t))) = f (get t) := rereads _
  rw [List.foldl_cons]
  simp [rereadField,field,decodeVia,fresh,read]

/-- A field that was left out is read back as the zero value. -/
theorem foldl_omitEmpty {name : String} {c : Codec α} {w : Json → Json} {f : α → Decoded α} {empty : α → Bool}
    {get : σ → α} {set : σ → α → σ} (rereads : c.RereadsBy w f) {t before : σ} {mismatch : Bool}
    {rest : List (StructField σ)} (fresh : get before = c.zero) (own : set before (get before) = before) :
    (fieldOmitEmpty name c empty get set :: rest).foldl (rereadField w t) ⟨before,mismatch⟩ =
      rest.foldl (rereadField w t) ⟨set before (if empty (get t) then c.zero else (f (get t)).value),
        mismatch || (!empty (get t) && (f (get t)).mismatch)⟩ := by
  have read : c.decode c.zero (w (c.encode (get t))) = f (get t) := rereads _
  rw [List.foldl_cons]
  congr 1
  unfold rereadField fieldOmitEmpty field decodeVia
  cases left : empty (get t) with
  | true => simp [left,← fresh,own]
  | false => simp [left,fresh,read]

/-- `get` reads what the field `name`, and no other, decodes with `c`. -/
def Reads (fields : List (StructField σ)) (name : String) (c : Codec α) (get : σ → α) : Prop :=
  (∀ f ∈ fields, f.name = name → ∀ s j, get (f.decode s j).value = (c.decode (get s) j).value) ∧
    ∀ f ∈ fields, f.name ≠ name → ∀ s j, get (f.decode s j).value = get s

/-- The members of an object that go to the field `name`. -/
def selected (fields : List (StructField σ)) (name : String) (members : List (String × Json)) : List Json :=
  members.filterMap (fun e => if (fieldFor fields e.1).map StructField.name = some name then some e.2 else none)

theorem fieldFor_mem {fields : List (StructField σ)} {key : String} {f : StructField σ}
    (found : fieldFor fields key = some f) : f ∈ fields := by
  unfold fieldFor at found
  split at found
  · rename_i g exact_
    cases found
    exact List.mem_of_find?_eq_some exact_
  · exact List.mem_of_find?_eq_some found

/-- A field is decoded from the members that go to it, whatever else the object has. -/
theorem decode_reads {fields : List (StructField σ)} {name : String} {c : Codec α} {get : σ → α}
    (reads : Reads fields name c get) (members : List (String × Json)) (old : σ) :
    get (decodeStruct fields old (.obj members)).value =
      (selected fields name members).foldl (fun a j => (c.decode a j).value) (get old) := by
  have step : ∀ (members : List (String × Json)) (before : Decoded σ),
      get (members.foldl (decodeMember fields) before).value =
        (selected fields name members).foldl (fun a j => (c.decode a j).value) (get before.value) := by
    intro members
    induction members with
    | nil => intro before; rfl
    | cons e rest ih =>
      intro before
      rw [List.foldl_cons,ih]
      cases found : fieldFor fields e.1 with
      | none => simp [decodeMember,selected,found]
      | some f =>
        by_cases own : f.name = name
        · simp [decodeMember,selected,found,own,reads.1 f (fieldFor_mem found) own]
        · simp [decodeMember,selected,found,own,reads.2 f (fieldFor_mem found) own]
  exact step members _

end
end Zasper.Structs
