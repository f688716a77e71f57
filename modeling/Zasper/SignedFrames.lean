import Zasper.KernelSession

/-!
# Signed frames

What a session with a key makes of frames that are signed, and of frames that are not.
Frames with a wrong signature are answered with an error alone, whatever they say; of
frames with the right one all four parts are read, and the error is that of a part
(`only_signed`).
-/
namespace Zasper.SignedFrames
open Zasper.JsonValues Zasper.JsonText Zasper.Structs Zasper.Encodings Zasper.Slices Zasper.KernelMessages Zasper.KernelSession
set_option linter.unusedSimpArgs false

/-- The first delimiter stands at `i`, and five more frames follow it. -/
structure Delimited (frames : List Frame) (i : Nat) : Prop where
  delimiter : frames[i]? = some delim
  first : ∀ j < i, frames[j]? ≠ some delim
  enough : i + 5 < frames.length

/-- A frame behind the delimiter. -/
def frameAt (frames : List Frame) (i k : Nat) : Frame := (frames[i + k]?).getD []

/-- The frames that are signed: header, parent header, metadata and content. -/
def signedFrames (frames : List Frame) (i : Nat) : List Frame :=
  [frameAt frames i 2,frameAt frames i 3,frameAt frames i 4,frameAt frames i 5]

section
variable (mac : List UInt8 → List UInt8 → List UInt8) (key : List UInt8)

/-- The frame behind the delimiter has the code of the four frames that follow it, in
    hexadecimal digits. -/
def Signed (frames : List Frame) (i : Nat) : Prop :=
  hexDecode (frameAt frames i 1) = some (mac key (signedFrames frames i).flatten)

instance (frames : List Frame) (i : Nat) : Decidable (Signed mac key frames i) := inferInstanceAs (Decidable (_ = _))

/-- A message that says nothing but that there was an error. -/
structure Rejected (msg : Message) : Prop where
  error : msg.error ≠ none
  header : msg.header = KernelMessages.header.zero
  parentHeader : msg.parentHeader = KernelMessages.header.zero
  metadata : msg.metadata = .null
  content : msg.content = .null

/-- The message has the parts that are read from the four frames, and an error where one
    of them cannot be read. -/
structure Parsed (frames : List Frame) (i : Nat) (msg : Message) : Prop where
  header : msg.header = (KernelMessages.header.unmarshal (frameAt frames i 2) KernelMessages.header.zero).1
  parentHeader : msg.parentHeader = (KernelMessages.header.unmarshal (frameAt frames i 3) KernelMessages.header.zero).1
  metadata : msg.metadata = (any.unmarshal (frameAt frames i 4) .null).1
  content : msg.content = (any.unmarshal (frameAt frames i 5) .null).1
  error : msg.error ≠ none ↔
    (KernelMessages.header.unmarshal (frameAt frames i 2) KernelMessages.header.zero).2 ≠ none ∨
    (KernelMessages.header.unmarshal (frameAt frames i 3) KernelMessages.header.zero).2 ≠ none ∨
    (any.unmarshal (frameAt frames i 4) .null).2 ≠ none ∨ (any.unmarshal (frameAt frames i 5) .null).2 ≠ none

end

/-! ## Frames behind a delimiter -/

theorem Delimited.split {frames : List Frame} {i : Nat} (delimited : Delimited frames i) :
    ∃ ids more, frames = ids ++ delim :: frameAt frames i 1 :: (signedFrames frames i ++ more) ∧ delim ∉ ids := by
  have enough := delimited.enough
  have here : frames.drop i = delim :: frames.drop (i + 1) := by
    obtain ⟨inside,same⟩ := List.getElem?_eq_some_iff.mp delimited.delimiter
    rw [List.drop_eq_getElem_cons inside,same]
  have next (k : Nat) (inside : i + k < frames.length) :
      frames.drop (i + k) = frameAt frames i k :: frames.drop (i + k + 1) := by
    rw [List.drop_eq_getElem_cons inside,frameAt,List.getElem?_eq_getElem inside]
    rfl
  refine ⟨frames.take i,frames.drop (i + 6),?_,?_⟩
  · calc frames = frames.take i ++ frames.drop i := (List.take_append_drop i frames).symm
      _ = _ := by
        rw [here,next 1 (by omega),next 2 (by omega),next 3 (by omega),next 4 (by omega),next 5 (by omega)]
        rfl
  · intro inside
    obtain ⟨j,small,same⟩ := List.mem_iff_getElem.mp inside
    rw [List.length_take] at small
    apply delimited.first j (by omega)
    rw [List.getElem?_eq_getElem (by omega),← same,List.getElem_take]

section
variable {mac : List UInt8 → List UInt8 → List UInt8} {key : List UInt8}

theorem checkSignature_iff (signed : List Frame) (signature : Frame) :
    checkSignature mac key signed signature = none ↔ hexDecode signature = some (mac key signed.flatten) := by
  unfold checkSignature
  cases hexDecode signature with
  | none => simp
  | some code => simp [eq_comm]

/-- With a key, frames are read as their signature says. -/
theorem deserialize_delimited (keyed : key ≠ []) {frames : Slice Frame} {i : Nat} (delimited : Delimited frames.elems i)
    (chanel : String) : (deserialize mac key frames chanel).result = some (marshal (encodeMessage
      (match checkSignature mac key (signedFrames frames.elems i) (frameAt frames.elems i 1) with
        | some invalid => { Message.zero with error := some invalid }
        | none => { unmarshalParts (frameAt frames.elems i 2) (frameAt frames.elems i 3) (frameAt frames.elems i 4)
            (frameAt frames.elems i 5) with channel := chanel }))) := by
  obtain ⟨ids,more,elems,others⟩ := delimited.split
  have gives := (@gives_deserialize mac key _ _ _ _ _ _ _ _ elems others chanel).1
  rw [received,if_neg keyed] at gives
  exact gives

theorem orError_iff (part : String) (cause : Option UnmarshalError) (before : Option MessageError) :
    orError part cause before ≠ none ↔ cause ≠ none ∨ before ≠ none := by
  cases cause <;> simp [orError]

theorem parsed_unmarshalParts (frames : List Frame) (i : Nat) (chanel : String) : Parsed frames i
    { unmarshalParts (frameAt frames i 2) (frameAt frames i 3) (frameAt frames i 4) (frameAt frames i 5) with
      channel := chanel } where
  header := rfl
  parentHeader := rfl
  metadata := rfl
  content := rfl
  error := by
    have reversed (p q r s : Prop) : p ∨ q ∨ r ∨ s ↔ s ∨ r ∨ q ∨ p := by tauto
    simp only [unmarshalParts,orError_iff,ne_eq,not_true_eq_false,or_false]
    exact reversed ..

/-- Frames that are not signed are answered alike, whatever follows the signature. -/
theorem unsigned_alike (keyed : key ≠ []) {frames : Slice Frame} {i : Nat} (delimited : Delimited frames.elems i)
    (forged : ¬ Signed mac key frames.elems i) (chanel : String) :
    ∃ invalid, (deserialize mac key frames chanel).result =
      some (marshal (encodeMessage { Message.zero with error := some invalid })) := by
  rw [deserialize_delimited keyed delimited]
  cases checked : checkSignature mac key (signedFrames frames.elems i) (frameAt frames.elems i 1) with
  | some invalid => exact ⟨invalid,rfl⟩
  | none => exact absurd ((checkSignature_iff _ _).mp checked) forged

end

/-- Only signed frames get through. Those that are not signed give an error and nothing
    else, the same for all such frames; those that are signed give what they say. -/
theorem only_signed (mac : List UInt8 → List UInt8 → List UInt8) {key : List UInt8} (keyed : key ≠ [])
    {frames : Slice Frame} {i : Nat} (delimited : Delimited frames.elems i) (chanel : String) :
    ∃ msg, (deserialize mac key frames chanel).result = some (marshal (encodeMessage msg)) ∧
      (¬ Signed mac key frames.elems i → Rejected msg ∧
        ∀ (other : Slice Frame) (j : Nat) (otherChanel : String), Delimited other.elems j →
          ¬ Signed mac key other.elems j →
          (deserialize mac key other otherChanel).result = (deserialize mac key frames chanel).result) ∧
      (Signed mac key frames.elems i → Parsed frames.elems i msg ∧ msg.channel = chanel) := by
  by_cases signed : Signed mac key frames.elems i
  · refine ⟨_,deserialize_delimited keyed delimited chanel,fun forged => absurd signed forged,fun _ => ?_⟩
    rw [(checkSignature_iff _ _).mpr signed]
    exact ⟨parsed_unmarshalParts frames.elems i chanel,rfl⟩
  · obtain ⟨invalid,answer⟩ := unsigned_alike keyed delimited signed chanel
    refine ⟨_,answer,fun _ => ⟨⟨by simp,rfl,rfl,rfl,rfl⟩,?_⟩,fun right => absurd right signed⟩
    intro other j otherChanel otherDelimited otherForged
    obtain ⟨otherInvalid,otherAnswer⟩ := unsigned_alike keyed otherDelimited otherForged otherChanel
    -- the JSON of an error does not tell which error it is
    rw [answer,otherAnswer]
    rfl

/-- Frames under the digit `a` alone, which is no code. -/
theorem only_signed_digit : ∃ msg, (deserialize (fun _ _ => []) [1] ⟨[delim,[0x61],[0],[1],[2],[3]],[]⟩ "shell").result =
    some (marshal (encodeMessage msg)) ∧ Rejected msg := by
  obtain ⟨msg,answer,forged,-⟩ := @only_signed (fun _ _ => []) [1] (by decide) ⟨[delim,[0x61],[0],[1],[2],[3]],[]⟩ 0
    ⟨by decide,by simp,by decide⟩ "shell"
  exact ⟨msg,answer,(forged (by decide)).1⟩

end Zasper.SignedFrames
