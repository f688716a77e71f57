import Zasper.Nbformat

/-!
# Members of objects

What stands under a key of an object, whether the object was given, was written from a
structure (`member?_encodeStruct`) or has been written again with its members in key
order (`member?_of_ofJson_eq`), and what a structure reads of it then
(`decodeStruct_denoted`).
-/
namespace Zasper.JsonMembers
open Zasper.Maps Zasper.JsonValues Zasper.Structs Zasper.Nbformat
set_option linter.unusedSimpArgs false

/-! ## Objects -/

theorem member?_nil (key : String) : member? key (.obj []) = none := rfl

theorem member?_cons (key name : String) (j : Json) (members : List (String × Json)) :
    member? key (.obj ((name,j) :: members)) = if name = key then some j else member? key (.obj members) := by
  simp only [member?,List.find?_cons]
  by_cases same : name = key
  · simp [same]
  · simp [same]

theorem member?_mem {key : String} {j : Json} {members : List (String × Json)}
    (here : member? key (.obj members) = some j) : (key,j) ∈ members := by
  obtain ⟨e,found,rfl⟩ := Option.map_eq_some_iff.mp here
  have name : e.1 = key := by simpa using List.find?_some found
  exact name ▸ List.mem_of_find?_eq_some found

theorem member?_missing {key : String} {members : List (String × Json)} (missing : member? key (.obj members) = none)
    (j : Json) : (key,j) ∉ members := by
  intro inside
  have other := List.find?_eq_none.mp (Option.map_eq_none_iff.mp missing) _ inside
  simp at other

theorem member?_dict (m : Dict String Value) (key : String) :
    member? key (Value.dict m).json = (m.get? key).map Value.json := by
  simp only [member?,Value.json_dict,Dict.get?,List.find?_map,Option.map_map]
  rfl

/-- The map that an object is read as. -/
def bundleOf (members : List (String × Json)) : Dict String Value := .ofEntries (members.map (fun e => (e.1,.ofJson e.2)))

theorem ofJson_obj (members : List (String × Json)) : Value.ofJson (.obj members) = .dict (bundleOf members) := by
  have entries : normMembers members = (sortEntries (members.map (fun e => (e.1,Value.ofJson e.2)))).map
      (fun e => (e.1,e.2.json)) := by
    rw [normMembers_eq,map_sortEntries,List.map_map]
    rfl
  exact Value.ext (congrArg Json.obj entries)

theorem ofJson_eq_str {j : Json} {s : String} (text : Value.ofJson j = .str s) : j = .str s := by
  have same : denoted j = .str s := congrArg Value.json text
  cases j with
  | num n => cases read : n.float64 <;> simp [denoted,read] at same
  | _ => simp_all [denoted]

section
variable {members others : List (String × Json)}

theorem mem_bundleOf (distinct : (members.map Prod.fst).Nodup) {e : String × Value} :
    e ∈ (bundleOf members).entries ↔ ∃ j, (e.1,j) ∈ members ∧ Value.ofJson j = e.2 := by
  have distinctValues : ((members.map (fun e => (e.1,Value.ofJson e.2))).map Prod.fst).Nodup := by
    simpa [List.map_map,Function.comp_def] using distinct
  rw [bundleOf,Dict.ofEntries,(sortEntries_perm distinctValues).mem_iff,List.mem_map]
  constructor
  · rintro ⟨e,inside,rfl⟩
    exact ⟨e.2,inside,rfl⟩
  · rintro ⟨j,inside,value⟩
    exact ⟨(e.1,j),inside,by rw [value]⟩

theorem bundleOf_get (distinct : (members.map Prod.fst).Nodup) (key : String) :
    (bundleOf members).get? key = (member? key (.obj members)).map Value.ofJson := by
  cases here : member? key (.obj members) with
  | none =>
    rw [Option.map_none,Dict.get?_eq_none]
    intro v inside
    obtain ⟨j,there,-⟩ := (mem_bundleOf distinct).mp inside
    exact member?_missing here j there
  | some j =>
    rw [Option.map_some,Dict.get?_eq_some,mem_bundleOf distinct]
    exact ⟨j,member?_mem here,rfl⟩

end

/-! ## Maps -/

theorem mapping_decode (members : List (String × Json)) :
    mapping.decode none (.obj members) = ⟨some (bundleOf members),membersOutOfRange members⟩ := by
  simp [mapping,entriesOf,bundleOf]

theorem sortEntries_append_sorted (first second : List (String × Value)) :
    sortEntries (first ++ sortEntries second) = sortEntries (first ++ second) := by
  induction first with
  | nil => exact sortEntries_of_sorted (sortEntries_sorted second)
  | cons e first ih => rw [List.cons_append,List.cons_append,sortEntries,sortEntries,ih]

/-- A list whose items are read without a mismatch. -/
theorem list_decode {α β : Type} {c : Codec α} {sent : β → Json} {read : β → α} {items : List β}
    (reads : ∀ b ∈ items, c.decode c.zero (sent b) = ⟨read b,false⟩) (old : Option (List α)) :
    (list c).decode old (.arr (items.map sent)) = ⟨some (items.map read),false⟩ := by
  have values : (items.map sent).map (fun j => (c.decode c.zero j).value) = items.map read := by
    rw [List.map_map]
    exact List.map_congr_left (fun b inside => congrArg Decoded.value (reads b inside))
  have none : (items.map sent).any (fun j => (c.decode c.zero j).mismatch) = false := by
    simp only [List.any_map,List.any_eq_false,Function.comp_apply,Bool.not_eq_true]
    exact fun b inside => congrArg Decoded.mismatch (reads b inside)
  simp only [list,values,none]

/-! ## Structures -/

section
variable {σ : Type} {fields : List (StructField σ)} {s t : σ}

/-- No other names stand in an object than those of the fields. -/
theorem member?_unknown {key : String} (unknown : key ∉ fields.map StructField.name) (s : σ) :
    member? key (encodeStruct fields s) = none := by
  simp only [encodeStruct,member?,Option.map_eq_none_iff,List.find?_eq_none,decide_eq_true_eq]
  intro e there same
  obtain ⟨f,kept,rfl⟩ := List.mem_map.mp there
  exact unknown (same ▸ List.mem_map_of_mem (List.mem_of_mem_filter kept))

/-- A field stands under its name where it is not left out. -/
theorem member?_encodeStruct (distinct : (fields.map StructField.name).Nodup) {f : StructField σ} (inside : f ∈ fields)
    (s : σ) : member? f.name (encodeStruct fields s) = if f.omitted s then none else some (f.encode s) := by
  induction fields with
  | nil => cases inside
  | cons g fields ih =>
    obtain ⟨fresh,distinct⟩ := List.nodup_cons.mp distinct
    have shorter : g.omitted s = true → encodeStruct (g :: fields) s = encodeStruct fields s := by
      intro omitted
      simp only [encodeStruct,List.filter_cons,omitted,Bool.not_true,Bool.false_eq_true,↓reduceIte]
    have longer : g.omitted s = false → ∀ key, member? key (encodeStruct (g :: fields) s) =
        if g.name = key then some (g.encode s) else member? key (encodeStruct fields s) := by
      intro omitted key
      simp only [encodeStruct,List.filter_cons,omitted,Bool.not_false,↓reduceIte,List.map_cons,member?_cons]
    rcases List.mem_cons.mp inside with rfl | later
    · cases omitted : f.omitted s with
      | true => rw [shorter omitted,member?_unknown fresh,if_pos rfl]
      | false => rw [longer omitted,if_pos rfl,if_neg Bool.false_ne_true]
    · have different : g.name ≠ f.name := fun same => fresh (same ▸ List.mem_map_of_mem later)
      cases omitted : g.omitted s with
      | true => rw [shorter omitted,ih distinct later]
      | false => rw [longer omitted,if_neg different,ih distinct later]

theorem encodeStruct_congr
    (same : ∀ f ∈ fields, f.omitted s = f.omitted t ∧ (f.omitted s = false → f.encode s = f.encode t)) :
    encodeStruct fields s = encodeStruct fields t := by
  have kept : fields.filter (fun f => !f.omitted t) = fields.filter (fun f => !f.omitted s) := by
    refine List.filter_congr ?_
    intro f inside
    rw [(same f inside).1]
  rw [encodeStruct,encodeStruct,kept]
  refine congrArg Json.obj (List.map_congr_left ?_)
  intro f inside
  obtain ⟨inFields,written⟩ := List.mem_filter.mp inside
  rw [(same f inFields).2 (by simpa using written)]

/-- Members that go to no field are dropped. -/
theorem foldl_decodeMember_known (members : List (String × Json)) (before : Decoded σ) :
    (members.filter (fun e => (fieldFor fields e.1).isSome)).foldl (decodeMember fields) before =
      members.foldl (decodeMember fields) before := by
  induction members generalizing before with
  | nil => rfl
  | cons e members ih =>
    cases found : fieldFor fields e.1 with
    | none =>
      have dropped : decodeMember fields before e = before := by simp only [decodeMember,found]
      simp only [List.filter_cons,found,Option.isSome_none,Bool.false_eq_true,↓reduceIte,List.foldl_cons,dropped,ih]
    | some f => simp only [List.filter_cons,found,Option.isSome_some,↓reduceIte,List.foldl_cons,ih]

/-- What a member adds that is read without a mismatch. -/
theorem decodeMember_read {α : Type} (good : Fields fields) {name : String} {c : Codec α} {get : σ → α}
    {set : σ → α → σ} (inside : field name c get set ∈ fields) {j : Json} {a : α} (read : c.decode (get s) j = ⟨a,false⟩) :
    decodeMember fields ⟨s,false⟩ (name,j) = ⟨set s a,false⟩ := by
  have found : fieldFor fields name = some (field name c get set) := fieldFor_name good.distinct inside
  simp only [decodeMember,found,field,decodeVia,read,Bool.or_self]

theorem decodeMember_unknown {name : String} (unknown : fieldFor fields name = none) (before : Decoded σ) (j : Json) :
    decodeMember fields before (name,j) = before := by
  simp only [decodeMember,unknown]

/-- The field that a member goes to by its name decodes the member alike once that is
    written again. -/
def Stable (fields : List (StructField σ)) (e : String × Json) : Prop :=
  ∀ f ∈ fields, f.name = e.1 → ∀ s, f.decode s (denoted e.2) = f.decode s e.2

theorem stable_of_normal {e : String × Json} (normal : denoted e.2 = e.2) : Stable fields e := by
  intro f _ _ s
  rw [normal]

/-- An object whose members go to fields by their exact names, or to none, is decoded alike
    when its members are brought in key order. -/
theorem decodeStruct_denoted (good : Fields fields) {members : List (String × Json)}
    (distinct : (members.map Prod.fst).Nodup)
    (own : ∀ e ∈ members, (fieldFor fields e.1).isSome → ∃ f ∈ fields, f.name = e.1)
    (stable : ∀ e ∈ members, Stable fields e) (old : σ) :
    decodeStruct fields old (denoted (.obj members)) = decodeStruct fields old (.obj members) := by
  obtain ⟨again,same,perm⟩ := Rewriting.obj (.inr rfl) distinct
  rw [same]
  have known : (again.filter (fun e => (fieldFor fields e.1).isSome)).Perm
      ((members.filter (fun e => (fieldFor fields e.1).isSome)).map (fun e => (e.1,denoted e.2))) := by
    have filtered := perm.filter (fun e => (fieldFor fields e.1).isSome)
    rwa [List.filter_map] at filtered
  have keys : ((members.filter (fun e => (fieldFor fields e.1).isSome)).map (fun e => (e.1,denoted e.2))).map Prod.fst =
      (members.filter (fun e => (fieldFor fields e.1).isSome)).map Prod.fst := by
    simp [List.map_map,Function.comp_def]
  show again.foldl (decodeMember fields) ⟨old,false⟩ = members.foldl (decodeMember fields) ⟨old,false⟩
  rw [← foldl_decodeMember_known again,← foldl_decodeMember_known members]
  refine (foldl_decodeMember_perm good known ?_ ?_ _).trans ?_
  · rw [keys]
    exact distinct.sublist (List.filter_sublist.map _)
  · intro e inside
    obtain ⟨e,given,rfl⟩ := List.mem_map.mp inside
    obtain ⟨there,some⟩ := List.mem_filter.mp given
    exact own e there some
  · rw [List.foldl_map]
    refine List.foldl_ext _ _ _ ?_
    intro before e given
    obtain ⟨there,some⟩ := List.mem_filter.mp given
    obtain ⟨f,inFields,name⟩ := own e there some
    have found := fieldFor_name good.distinct inFields
    rw [name] at found
    simp only [decodeMember,found,stable e there f inFields name]

end
end Zasper.JsonMembers
