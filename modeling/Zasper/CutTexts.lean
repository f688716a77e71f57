import Zasper.JsonText

/-!
# Texts that were cut short

A write that fails leaves the beginning of a text. What has been read of it is read in
front of a longer text too (`lex_extend`), so that an object ends where its text ends
(`parse_cut`). The same holds of bytes, which may end inside of a character
(`unmarshal_cut`).
-/
namespace Zasper.CutTexts
open Zasper.JsonValues Zasper.JsonText
set_option linter.unusedSimpArgs false

/-! ## Tokens of a longer text -/

section
variable {cs rest : List Char}

theorem spanDigits_extend {digits : List Char} (span : spanDigits cs = (digits,rest)) (more : rest ≠ []) (after : List Char) :
    spanDigits (cs ++ after) = (digits,rest ++ after) := by
  induction cs generalizing digits with
  | nil =>
    simp only [spanDigits,Prod.mk.injEq] at span
    exact absurd span.2.symm more
  | cons c cs ih =>
    simp only [List.cons_append,spanDigits] at span ⊢
    split_ifs at span ⊢ with digit
    · obtain ⟨rfl,rfl⟩ := Prod.mk.inj span
      rw [ih rfl]
    · obtain ⟨rfl,rfl⟩ := Prod.mk.inj span
      rfl

theorem lexWhole_extend {whole : List Char} (read : lexWhole cs = some (whole,rest)) (more : rest ≠ []) (after : List Char) :
    lexWhole (cs ++ after) = some (whole,rest ++ after) := by
  cases cs with
  | nil => cases read
  | cons c cs =>
    simp only [List.cons_append,lexWhole] at read ⊢
    split_ifs at read ⊢ with zero digit
    · obtain ⟨rfl,rfl⟩ := Prod.mk.inj (Option.some.inj read)
      rfl
    · exact congrArg some (spanDigits_extend (Option.some.inj read) more after)

theorem lexFraction_extend {fraction : List Char} (read : lexFraction cs = some (fraction,rest)) (more : rest ≠ [])
    (after : List Char) : lexFraction (cs ++ after) = some (fraction,rest ++ after) := by
  cases cs with
  | nil =>
    obtain ⟨-,rfl⟩ := Prod.mk.inj (Option.some.inj read)
    exact absurd rfl more
  | cons c cs =>
    by_cases point : c = '.'
    · subst point
      cases span : spanDigits cs with
      | mk digits left =>
        simp only [List.cons_append,lexFraction,span] at read ⊢
        cases digits with
        | nil => cases read
        | cons d digits =>
          obtain ⟨rfl,rfl⟩ := Prod.mk.inj (Option.some.inj read)
          rw [spanDigits_extend span more]
    · have plain (cs : List Char) : lexFraction (c :: cs) = some ([],c :: cs) := by
        unfold lexFraction
        split
        · rename_i same
          exact absurd (List.cons.inj same).1 point
        · rfl
      rw [plain] at read
      obtain ⟨rfl,rfl⟩ := Prod.mk.inj (Option.some.inj read)
      exact plain _

theorem lexExponentDigits_extend {sign : Int} {exponent : Option Int} (read : lexExponentDigits sign cs = some (exponent,rest))
    (more : rest ≠ []) (after : List Char) : lexExponentDigits sign (cs ++ after) = some (exponent,rest ++ after) := by
  cases span : spanDigits cs with
  | mk digits left =>
    simp only [lexExponentDigits,span] at read ⊢
    cases digits with
    | nil => cases read
    | cons d digits =>
      obtain ⟨rfl,rfl⟩ := Prod.mk.inj (Option.some.inj read)
      rw [spanDigits_extend span more]

theorem lexExponent_extend {exponent : Option Int} (read : lexExponent cs = some (exponent,rest)) (more : rest ≠ [])
    (after : List Char) : lexExponent (cs ++ after) = some (exponent,rest ++ after) := by
  cases cs with
  | nil =>
    obtain ⟨-,rfl⟩ := Prod.mk.inj (Option.some.inj read)
    exact absurd rfl more
  | cons c cs =>
    simp only [List.cons_append,lexExponent] at read ⊢
    split_ifs at read ⊢ with letter
    · cases cs with
      | nil => simp [lexExponentDigits,spanDigits] at read
      | cons sign cs =>
        by_cases plus : sign = '+'
        · subst plus
          exact lexExponentDigits_extend read more after
        · by_cases minus : sign = '-'
          · subst minus
            exact lexExponentDigits_extend read more after
          · split at read
            · rename_i same
              exact absurd (List.cons.inj same).1 plus
            · rename_i same
              exact absurd (List.cons.inj same).1 minus
            · split
              · rename_i same
                exact absurd (List.cons.inj same).1 plus
              · rename_i same
                exact absurd (List.cons.inj same).1 minus
              · exact lexExponentDigits_extend read more after
    · obtain ⟨rfl,rfl⟩ := Prod.mk.inj (Option.some.inj read)
      rfl

theorem lexUnsigned_extend {negative : Bool} {n : Number} (read : lexUnsigned negative cs = some (n,rest)) (more : rest ≠ [])
    (after : List Char) : lexUnsigned negative (cs ++ after) = some (n,rest ++ after) := by
  unfold lexUnsigned at read ⊢
  obtain ⟨⟨whole,cs₁⟩,wholeRead,read⟩ := Option.bind_eq_some_iff.mp read
  obtain ⟨⟨fraction,cs₂⟩,fractionRead,read⟩ := Option.bind_eq_some_iff.mp read
  obtain ⟨⟨exponent,cs₃⟩,exponentRead,read⟩ := Option.bind_eq_some_iff.mp read
  obtain ⟨rfl,rfl⟩ := Prod.mk.inj (Option.some.inj read)
  have more₂ : cs₂ ≠ [] := by
    rintro rfl
    exact more (Prod.mk.inj (Option.some.inj exponentRead)).2.symm
  have more₁ : cs₁ ≠ [] := by
    rintro rfl
    exact more₂ (Prod.mk.inj (Option.some.inj fractionRead)).2.symm
  simp only [lexWhole_extend wholeRead more₁,lexFraction_extend fractionRead more₂,lexExponent_extend exponentRead more,
    Option.bind_eq_bind,Option.bind_some]

theorem lexNumber_extend {n : Number} (read : lexNumber cs = some (n,rest)) (more : rest ≠ []) (after : List Char) :
    lexNumber (cs ++ after) = some (n,rest ++ after) := by
  cases cs with
  | nil => cases read
  | cons c cs =>
    by_cases minus : c = '-'
    · subst minus
      exact lexUnsigned_extend read more after
    · have plain (cs : List Char) : lexNumber (c :: cs) = lexUnsigned false (c :: cs) := by
        unfold lexNumber
        split
        · rename_i same
          exact absurd (List.cons.inj same).1 minus
        · rfl
      rw [plain] at read
      rw [List.cons_append,plain]
      exact lexUnsigned_extend read more after

theorem readHex4_extend {code : Nat} (read : readHex4 cs = some (code,rest)) (after : List Char) :
    readHex4 (cs ++ after) = some (code,rest ++ after) := by
  unfold readHex4 at read
  split at read
  · rename_i a b c d left
    obtain ⟨a',first,read⟩ := Option.bind_eq_some_iff.mp read
    obtain ⟨b',second,read⟩ := Option.bind_eq_some_iff.mp read
    obtain ⟨c',third,read⟩ := Option.bind_eq_some_iff.mp read
    obtain ⟨d',fourth,read⟩ := Option.bind_eq_some_iff.mp read
    obtain ⟨rfl,rfl⟩ := Prod.mk.inj (Option.some.inj read)
    simp only [List.cons_append,readHex4,first,second,third,fourth,Option.bind_eq_bind,Option.bind_some]
  · cases read

/-- A half of a pair is followed by more of its string. -/
theorem readUnicode_extend {c : Char} (read : readUnicode cs = some (c,rest)) (more : rest ≠ []) (whole : rest ≠ ['\\'])
    (after : List Char) : readUnicode (cs ++ after) = some (c,rest ++ after) := by
  unfold readUnicode at read ⊢
  obtain ⟨⟨code,left⟩,hex,read⟩ := Option.bind_eq_some_iff.mp read
  rw [readHex4_extend hex]
  simp only [Option.bind_eq_bind,Option.bind_some] at read ⊢
  split_ifs at read ⊢ with one
  · obtain ⟨rfl,rfl⟩ := Prod.mk.inj (Option.some.inj read)
    rfl
  · split at read
    · rename_i pair
      obtain ⟨⟨low,behind⟩,lowHex,read⟩ := Option.bind_eq_some_iff.mp read
      simp only [List.cons_append,readHex4_extend lowHex,Option.bind_some]
      split_ifs at read ⊢
      · obtain ⟨rfl,rfl⟩ := Prod.mk.inj (Option.some.inj read)
        rfl
      · obtain ⟨rfl,rfl⟩ := Prod.mk.inj (Option.some.inj read)
        rfl
    · rename_i single
      obtain ⟨rfl,rfl⟩ := Prod.mk.inj (Option.some.inj read)
      split
      · rename_i tail same
        rcases left with _ | ⟨d,_ | ⟨e,left⟩⟩
        · exact absurd rfl more
        · simp_all
        · simp_all
      · rfl

theorem readChar_simple {e : Char} (simple : e ≠ 'u') (cs : List Char) :
    readChar ('\\' :: e :: cs) = (simpleEscape e).map (fun c => (c,cs)) := by
  unfold readChar
  split
  · simp_all
  · simp_all
  · simp_all
  · rename_i noEscape same
    obtain ⟨backslash,left⟩ := List.cons.inj same
    exact absurd left.symm (noEscape e cs backslash.symm)

theorem readChar_plain {c : Char} (plain : c ≠ '\\') (cs : List Char) :
    readChar (c :: cs) = if c.toNat < 0x20 then none else some (c,cs) := by
  unfold readChar
  split <;> simp_all

theorem readChar_extend {c : Char} (read : readChar cs = some (c,rest)) (more : rest ≠ []) (whole : rest ≠ ['\\'])
    (after : List Char) : readChar (cs ++ after) = some (c,rest ++ after) := by
  cases cs with
  | nil => cases read
  | cons d cs =>
    by_cases backslash : d = '\\'
    · subst backslash
      cases cs with
      | nil => simp [readChar] at read
      | cons e cs =>
        by_cases unicode : e = 'u'
        · subst unicode
          exact readUnicode_extend read more whole after
        · rw [readChar_simple unicode] at read
          obtain ⟨f,simple,same⟩ := Option.map_eq_some_iff.mp read
          obtain ⟨rfl,rfl⟩ := Prod.mk.inj same
          rw [List.cons_append,List.cons_append,readChar_simple unicode,simple,Option.map_some]
    · rw [readChar_plain backslash] at read
      rw [List.cons_append,readChar_plain backslash]
      split_ifs at read ⊢
      obtain ⟨rfl,rfl⟩ := Prod.mk.inj (Option.some.inj read)
      rfl

theorem lexString_cons (n : Nat) {c : Char} (noQuote : c ≠ '"') (cs : List Char) : lexString (n + 1) (c :: cs) =
    (readChar (c :: cs)).bind (fun p => (lexString n p.2).bind (fun q => some (p.1 :: q.1,q.2))) := by
  conv => lhs; unfold lexString
  split
  · simp_all
  · simp_all
  · rename_i same _
    obtain rfl := Nat.succ.inj same
    rfl

/-- The end of a string has been read before a text is cut. -/
theorem lexString_extend {s : List Char} {n m : Nat} (read : lexString n cs = some (s,rest)) (enough : n ≤ m)
    (after : List Char) : lexString m (cs ++ after) = some (s,rest ++ after) := by
  induction n generalizing cs s m with
  | zero => simp [lexString] at read
  | succ n ih =>
    obtain ⟨m,rfl⟩ : ∃ k, m = k + 1 := ⟨m - 1,by omega⟩
    cases cs with
    | nil => simp [lexString,readChar] at read
    | cons d cs =>
      by_cases quote : d = '"'
      · subst quote
        obtain ⟨rfl,rfl⟩ := Prod.mk.inj (Option.some.inj read)
        rfl
      · rw [lexString_cons n quote] at read
        obtain ⟨⟨c,left⟩,char,read⟩ := Option.bind_eq_some_iff.mp read
        obtain ⟨⟨others,behind⟩,string,read⟩ := Option.bind_eq_some_iff.mp read
        obtain ⟨rfl,rfl⟩ := Prod.mk.inj (Option.some.inj read)
        have more : left ≠ [] := by
          rintro rfl
          cases n <;> simp [lexString,readChar] at string
        have whole : left ≠ ['\\'] := by
          rintro rfl
          cases n <;> simp [lexString,readChar] at string
        have longer := readChar_extend char more whole after
        rw [List.cons_append] at longer ⊢
        rw [lexString_cons m quote,longer,Option.bind_some,ih string (by omega),Option.bind_some]

/-- A number begins with a digit or its sign. -/
theorem lexNumber_head {c : Char} {n : Number} (read : lexNumber (c :: cs) = some (n,rest)) : c.isDigit = true ∨ c = '-' := by
  unfold lexNumber at read
  split at read
  · rename_i same
    exact .inr (List.cons.inj same).1
  · obtain ⟨⟨whole,left⟩,first,-⟩ := Option.bind_eq_some_iff.mp read
    simp only [lexWhole] at first
    split_ifs at first with zero digit
    · rw [zero]
      exact .inl (by decide)
    · exact .inl digit

theorem lexToken_number {c : Char} (number : c.isDigit = true ∨ c = '-') (cs : List Char) :
    lexToken (c :: cs) = (lexNumber (c :: cs)).map (fun p => (.num p.1,p.2)) := by
  have other : ∀ d : Char, d.isDigit = false → d ≠ '-' → c ≠ d := by
    rintro d digit minus rfl
    rcases number with yes | same
    · rw [yes] at digit
      cases digit
    · exact minus same
  unfold lexToken
  split
  all_goals first
    | (rename_i same; exact absurd (List.cons.inj same).1 (other _ (by decide) (by decide)))
    | rfl

theorem lexToken_extend {t : Token} (read : lexToken cs = some (t,rest)) (more : (∃ n, t = .num n) → rest ≠ [])
    (after : List Char) : lexToken (cs ++ after) = some (t,rest ++ after) := by
  unfold lexToken at read
  split at read
  case h_7 cs =>
    obtain ⟨⟨s,left⟩,string,same⟩ := Option.map_eq_some_iff.mp read
    obtain ⟨rfl,rfl⟩ := Prod.mk.inj same
    have longer := lexString_extend string (by simp : _ ≤ (cs ++ after).length + 1) after
    simp only [List.cons_append,lexToken,longer,Option.map_some]
  case h_11 =>
    obtain ⟨⟨n,left⟩,number,same⟩ := Option.map_eq_some_iff.mp read
    obtain ⟨rfl,rfl⟩ := Prod.mk.inj same
    cases cs with
    | nil => cases number
    | cons c cs =>
      rw [List.cons_append,lexToken_number (lexNumber_head number),← List.cons_append,
        lexNumber_extend number (more ⟨n,rfl⟩),Option.map_some]
  all_goals
    obtain ⟨rfl,rfl⟩ := Prod.mk.inj (Option.some.inj read)
    rfl

end

theorem lex_empty {n : Nat} {cs : List Char} (read : lex n cs = some []) : ∀ c ∈ cs, isSpace c = true := by
  induction n generalizing cs with
  | zero =>
    cases cs with
    | nil => simp
    | cons c cs => cases read
  | succ n ih =>
    cases cs with
    | nil => simp
    | cons c cs =>
      simp only [lex] at read
      split_ifs at read with space
      · exact List.forall_mem_cons.mpr ⟨space,ih read⟩
      · obtain ⟨⟨t,rest⟩,-,read⟩ := Option.bind_eq_some_iff.mp read
        obtain ⟨ts,-,same⟩ := Option.bind_eq_some_iff.mp read
        cases same

/-- Reading a longer text goes on after the tokens that were read. -/
theorem lex_extend {cs : List Char} {ts : List Token} {n : Nat} (read : lex n cs = some ts)
    (mark : ∀ t ∈ ts.getLast?, t.isMark = true) {after : List Char} {m : Nat} {us : List Token}
    (longer : lex m (cs ++ after) = some us) :
    ∃ vs, us = ts ++ vs ∧ (vs = [] → ∀ c ∈ after, isSpace c = true) := by
  induction n generalizing cs ts m us with
  | zero =>
    cases cs with
    | nil =>
      obtain rfl : [] = ts := Option.some.inj (by simpa [lex] using read)
      exact ⟨us,rfl,fun none => lex_empty (none ▸ longer)⟩
    | cons c cs => cases read
  | succ n ih =>
    cases cs with
    | nil =>
      obtain rfl : [] = ts := Option.some.inj (by simpa [lex] using read)
      exact ⟨us,rfl,fun none => lex_empty (none ▸ longer)⟩
    | cons c cs =>
      cases m with
      | zero => cases longer
      | succ m =>
        simp only [List.cons_append,lex] at read longer
        split_ifs at read longer with space
        · exact ih read mark longer
        · obtain ⟨⟨t,rest⟩,token,read⟩ := Option.bind_eq_some_iff.mp read
          obtain ⟨ts,others,same⟩ := Option.bind_eq_some_iff.mp read
          obtain rfl := Option.some.inj same
          have more : (∃ n, t = .num n) → rest ≠ [] := by
            rintro ⟨number,rfl⟩ rfl
            obtain rfl : [] = ts := Option.some.inj (by cases n <;> simpa [lex] using others)
            cases mark (.num number) rfl
          have extended := lexToken_extend token more after
          rw [List.cons_append] at extended
          simp only [extended,Option.bind_eq_bind,Option.bind_some] at longer
          obtain ⟨us,behind,same⟩ := Option.bind_eq_some_iff.mp longer
          obtain rfl := Option.some.inj same
          have last : ∀ u ∈ ts.getLast?, u.isMark = true := by
            intro u inside
            apply mark
            rw [List.getLast?_cons,Option.mem_def.mp inside]
            rfl
          obtain ⟨vs,rfl,blank⟩ := ih others last behind
          exact ⟨vs,rfl,blank⟩

/-! ## Values of a longer text -/

/-- What is read as a value are its tokens. -/
theorem parse_tokens (n : Nat) :
    (∀ ts j rest, parseValue n ts = some (j,rest) → ts = tokens j ++ rest) ∧
    (∀ ts js rest, parseItems n ts = some (js,rest) → ts = itemTokens js ++ rest) ∧
    (∀ ts es rest, parseMembers n ts = some (es,rest) → ts = memberTokens es ++ rest) := by
  induction n with
  | zero =>
    refine ⟨fun ts j rest read => ?_,fun ts js rest read => ?_,fun ts es rest read => ?_⟩
    · simp [parseValue] at read
    · simp [parseItems] at read
    · simp [parseMembers] at read
  | succ n ih =>
    obtain ⟨value,items,members⟩ := ih
    refine ⟨fun ts j rest read => ?_,fun ts js rest read => ?_,fun ts es rest read => ?_⟩
    · unfold parseValue at read
      split at read
      case h_6 =>
        rename_i same
        obtain rfl := Nat.succ.inj same
        obtain ⟨⟨first,left⟩,one,read⟩ := Option.bind_eq_some_iff.mp read
        obtain ⟨⟨others,left'⟩,more,read⟩ := Option.bind_eq_some_iff.mp read
        obtain ⟨rfl,rfl⟩ := Prod.mk.inj (Option.some.inj read)
        rw [value _ _ _ one,items _ _ _ more]
        simp [tokens]
      case h_8 =>
        rename_i same
        obtain rfl := Nat.succ.inj same
        obtain ⟨⟨first,left⟩,one,read⟩ := Option.bind_eq_some_iff.mp read
        obtain ⟨⟨others,left'⟩,more,read⟩ := Option.bind_eq_some_iff.mp read
        obtain ⟨rfl,rfl⟩ := Prod.mk.inj (Option.some.inj read)
        rw [value _ _ _ one,members _ _ _ more]
        simp [tokens]
      case h_9 => cases read
      all_goals
        obtain ⟨rfl,rfl⟩ := Prod.mk.inj (Option.some.inj read)
        rfl
    · unfold parseItems at read
      split at read
      · obtain ⟨rfl,rfl⟩ := Prod.mk.inj (Option.some.inj read)
        rfl
      · rename_i same
        obtain rfl := Nat.succ.inj same
        obtain ⟨⟨first,left⟩,one,read⟩ := Option.bind_eq_some_iff.mp read
        obtain ⟨⟨others,left'⟩,more,read⟩ := Option.bind_eq_some_iff.mp read
        obtain ⟨rfl,rfl⟩ := Prod.mk.inj (Option.some.inj read)
        rw [value _ _ _ one,items _ _ _ more]
        simp [itemTokens]
      · cases read
    · unfold parseMembers at read
      split at read
      · obtain ⟨rfl,rfl⟩ := Prod.mk.inj (Option.some.inj read)
        rfl
      · rename_i same
        obtain rfl := Nat.succ.inj same
        obtain ⟨⟨first,left⟩,one,read⟩ := Option.bind_eq_some_iff.mp read
        obtain ⟨⟨others,left'⟩,more,read⟩ := Option.bind_eq_some_iff.mp read
        obtain ⟨rfl,rfl⟩ := Prod.mk.inj (Option.some.inj read)
        rw [value _ _ _ one,members _ _ _ more]
        simp [memberTokens]
      · cases read

theorem memberTokens_ends (es : List (String × Json)) : (memberTokens es).getLast? = some .rbrace := by
  induction es with
  | nil => rfl
  | cons e es ih =>
    have behind : memberTokens (e :: es) = (.comma :: .str e.1 :: .colon :: tokens e.2) ++ memberTokens es := by
      simp [memberTokens]
    rw [behind,List.getLast?_append,ih]
    rfl

theorem tokens_obj_ends (es : List (String × Json)) : (tokens (.obj es)).getLast? = some .rbrace := by
  cases es with
  | nil => rfl
  | cons e es =>
    have behind : tokens (.obj (e :: es)) = (.lbrace :: .str e.1 :: .colon :: tokens e.2) ++ memberTokens es := by
      simp [tokens]
    rw [behind,List.getLast?_append,memberTokens_ends]
    rfl

/-- The tokens of a text that is a value. -/
theorem parse_some {cs : List Char} {j : Json} (read : parse cs = some j) : lex cs.length cs = some (tokens j) := by
  obtain ⟨ts,lexed,read⟩ := Option.bind_eq_some_iff.mp read
  obtain ⟨⟨k,left⟩,value,read⟩ := Option.bind_eq_some_iff.mp read
  cases left with
  | nil =>
    obtain rfl := Option.some.inj read
    rw [lexed,(parse_tokens ts.length).1 _ _ _ value,List.append_nil]
  | cons t left => cases read

/-- An object ends where its text ends. -/
theorem parse_cut {cs after : List Char} {es : List (String × Json)} {j : Json} (read : parse cs = some (.obj es))
    (whole : parse (cs ++ after) = some j) : ∀ c ∈ after, isSpace c = true := by
  have mark : ∀ t ∈ (tokens (.obj es)).getLast?, t.isMark = true := by
    rw [tokens_obj_ends]
    rintro t ⟨⟩
    rfl
  obtain ⟨vs,behind,blank⟩ := lex_extend (parse_some read) mark (parse_some whole)
  apply blank
  -- Both are what the tokens are read as.
  have first := parseValue_tokens (.obj es) vs (tokens j).length (by rw [behind]; simp)
  have second := parseValue_tokens j [] (tokens j).length (Nat.le_refl _)
  rw [List.append_nil] at second
  rw [← behind] at first
  exact (Prod.mk.inj (Option.some.inj (first.symm.trans second))).2

/-! ## Where an object ends -/

theorem spanDigits_suffix (cs : List Char) : (spanDigits cs).2 <:+ cs := by
  induction cs with
  | nil => exact List.suffix_rfl
  | cons c cs ih =>
    simp only [spanDigits]
    split_ifs
    · exact ih.trans (List.suffix_cons c cs)
    · exact List.suffix_rfl

section
variable {cs rest : List Char}

theorem lexWhole_suffix {whole : List Char} (read : lexWhole cs = some (whole,rest)) : rest <:+ cs := by
  unfold lexWhole at read
  split at read
  · cases read
  · rename_i c cs
    split_ifs at read with zero digit
    · obtain ⟨-,rfl⟩ := Prod.mk.inj (Option.some.inj read)
      exact List.suffix_cons c cs
    · have suffix := spanDigits_suffix (c :: cs)
      rw [Option.some.inj read] at suffix
      exact suffix

theorem lexFraction_suffix {fraction : List Char} (read : lexFraction cs = some (fraction,rest)) : rest <:+ cs := by
  unfold lexFraction at read
  split at read
  · rename_i cs
    have suffix := spanDigits_suffix cs
    split at read
    · cases read
    · rename_i span
      obtain ⟨-,rfl⟩ := Prod.mk.inj (Option.some.inj read)
      rw [span] at suffix
      exact suffix.trans (List.suffix_cons '.' cs)
  · obtain ⟨-,rfl⟩ := Prod.mk.inj (Option.some.inj read)
    exact List.suffix_rfl

theorem lexExponentDigits_suffix {sign : Int} {exponent : Option Int} (read : lexExponentDigits sign cs = some (exponent,rest)) :
    rest <:+ cs := by
  have suffix := spanDigits_suffix cs
  unfold lexExponentDigits at read
  split at read
  · cases read
  · rename_i span
    obtain ⟨-,rfl⟩ := Prod.mk.inj (Option.some.inj read)
    rw [span] at suffix
    exact suffix

theorem lexExponent_suffix {exponent : Option Int} (read : lexExponent cs = some (exponent,rest)) : rest <:+ cs := by
  unfold lexExponent at read
  split at read
  · rename_i c cs
    split_ifs at read with letter
    · refine List.IsSuffix.trans ?_ (List.suffix_cons c cs)
      split at read
      · exact (lexExponentDigits_suffix read).trans (List.suffix_cons ..)
      · exact (lexExponentDigits_suffix read).trans (List.suffix_cons ..)
      · exact lexExponentDigits_suffix read
    · obtain ⟨-,rfl⟩ := Prod.mk.inj (Option.some.inj read)
      exact List.suffix_rfl
  · obtain ⟨-,rfl⟩ := Prod.mk.inj (Option.some.inj read)
    exact List.suffix_rfl

theorem lexUnsigned_suffix {negative : Bool} {n : Number} (read : lexUnsigned negative cs = some (n,rest)) : rest <:+ cs := by
  unfold lexUnsigned at read
  obtain ⟨⟨whole,cs₁⟩,wholeRead,read⟩ := Option.bind_eq_some_iff.mp read
  obtain ⟨⟨fraction,cs₂⟩,fractionRead,read⟩ := Option.bind_eq_some_iff.mp read
  obtain ⟨⟨exponent,cs₃⟩,exponentRead,read⟩ := Option.bind_eq_some_iff.mp read
  obtain ⟨-,rfl⟩ := Prod.mk.inj (Option.some.inj read)
  exact (lexExponent_suffix exponentRead).trans ((lexFraction_suffix fractionRead).trans (lexWhole_suffix wholeRead))

theorem lexNumber_suffix {n : Number} (read : lexNumber cs = some (n,rest)) : rest <:+ cs := by
  unfold lexNumber at read
  split at read
  · exact (lexUnsigned_suffix read).trans (List.suffix_cons ..)
  · exact lexUnsigned_suffix read

theorem readHex4_suffix {code : Nat} (read : readHex4 cs = some (code,rest)) : rest <:+ cs := by
  unfold readHex4 at read
  split at read
  · rename_i a b c d left
    obtain ⟨a',first,read⟩ := Option.bind_eq_some_iff.mp read
    obtain ⟨b',second,read⟩ := Option.bind_eq_some_iff.mp read
    obtain ⟨c',third,read⟩ := Option.bind_eq_some_iff.mp read
    obtain ⟨d',fourth,read⟩ := Option.bind_eq_some_iff.mp read
    obtain ⟨-,rfl⟩ := Prod.mk.inj (Option.some.inj read)
    exact List.suffix_append [a,b,c,d] left
  · cases read

theorem readUnicode_suffix {c : Char} (read : readUnicode cs = some (c,rest)) : rest <:+ cs := by
  unfold readUnicode at read
  obtain ⟨⟨code,left⟩,hex,read⟩ := Option.bind_eq_some_iff.mp read
  refine List.IsSuffix.trans ?_ (readHex4_suffix hex)
  simp only at read
  split_ifs at read with one
  · obtain ⟨-,rfl⟩ := Prod.mk.inj (Option.some.inj read)
    exact List.suffix_rfl
  · split at read
    · rename_i more
      obtain ⟨⟨low,behind⟩,lowHex,read⟩ := Option.bind_eq_some_iff.mp read
      simp only at read
      split_ifs at read
      · obtain ⟨-,rfl⟩ := Prod.mk.inj (Option.some.inj read)
        exact (readHex4_suffix lowHex).trans (List.suffix_append ['\\','u'] more)
      · obtain ⟨-,rfl⟩ := Prod.mk.inj (Option.some.inj read)
        exact List.suffix_rfl
    · obtain ⟨-,rfl⟩ := Prod.mk.inj (Option.some.inj read)
      exact List.suffix_rfl

theorem readChar_suffix {c : Char} (read : readChar cs = some (c,rest)) : rest <:+ cs := by
  unfold readChar at read
  split at read
  · cases read
  · rename_i left
    exact (readUnicode_suffix read).trans (List.suffix_append ['\\','u'] left)
  · rename_i e left noUnicode
    obtain ⟨d,simple,same⟩ := Option.map_eq_some_iff.mp read
    obtain ⟨-,rfl⟩ := Prod.mk.inj same
    exact List.suffix_append ['\\',e] left
  · split_ifs at read
    obtain ⟨-,rfl⟩ := Prod.mk.inj (Option.some.inj read)
    exact List.suffix_cons ..

theorem lexString_suffix {s : List Char} {n : Nat} (read : lexString n cs = some (s,rest)) : rest <:+ cs := by
  induction n generalizing cs s with
  | zero => simp [lexString] at read
  | succ n ih =>
    cases cs with
    | nil => simp [lexString,readChar] at read
    | cons d cs =>
      by_cases quote : d = '"'
      · subst quote
        obtain ⟨-,rfl⟩ := Prod.mk.inj (Option.some.inj read)
        exact List.suffix_cons ..
      · rw [lexString_cons n quote] at read
        obtain ⟨⟨c,left⟩,char,read⟩ := Option.bind_eq_some_iff.mp read
        obtain ⟨⟨others,behind⟩,string,read⟩ := Option.bind_eq_some_iff.mp read
        obtain ⟨-,rfl⟩ := Prod.mk.inj (Option.some.inj read)
        exact (ih string).trans (readChar_suffix char)

theorem lexToken_suffix {t : Token} (read : lexToken cs = some (t,rest)) : rest <:+ cs := by
  unfold lexToken at read
  split at read
  case h_7 cs =>
    obtain ⟨⟨s,left⟩,string,same⟩ := Option.map_eq_some_iff.mp read
    obtain ⟨-,rfl⟩ := Prod.mk.inj same
    exact (lexString_suffix string).trans (List.suffix_cons ..)
  case h_8 cs =>
    obtain ⟨-,rfl⟩ := Prod.mk.inj (Option.some.inj read)
    exact List.suffix_append ['n','u','l','l'] cs
  case h_9 cs =>
    obtain ⟨-,rfl⟩ := Prod.mk.inj (Option.some.inj read)
    exact List.suffix_append ['t','r','u','e'] cs
  case h_10 cs =>
    obtain ⟨-,rfl⟩ := Prod.mk.inj (Option.some.inj read)
    exact List.suffix_append ['f','a','l','s','e'] cs
  case h_11 =>
    obtain ⟨⟨n,left⟩,number,same⟩ := Option.map_eq_some_iff.mp read
    obtain ⟨-,rfl⟩ := Prod.mk.inj same
    exact lexNumber_suffix number
  all_goals
    obtain ⟨-,rfl⟩ := Prod.mk.inj (Option.some.inj read)
    exact List.suffix_cons ..

end

theorem lexToken_rbrace {c : Char} {cs rest : List Char} (read : lexToken (c :: cs) = some (.rbrace,rest)) :
    c = '}' ∧ rest = cs := by
  unfold lexToken at read
  split at read
  case h_2 =>
    rename_i same
    obtain ⟨rfl,rfl⟩ := List.cons.inj same
    exact ⟨rfl,(Prod.mk.inj (Option.some.inj read)).2.symm⟩
  all_goals simp at read

/-- A text of which the last token is a brace ends with it. -/
theorem lex_last {n : Nat} {cs : List Char} {ts : List Token} (read : lex n cs = some ts) (brace : ts.getLast? = some .rbrace) :
    ∀ c ∈ cs.getLast?, c = '}' ∨ isSpace c = true := by
  induction n generalizing cs ts with
  | zero =>
    cases cs with
    | nil => simp
    | cons c cs => cases read
  | succ n ih =>
    cases cs with
    | nil => simp
    | cons c cs =>
      simp only [lex] at read
      split_ifs at read with space
      · rw [List.getLast?_cons]
        intro d last
        cases behind : cs.getLast? with
        | none =>
          rw [behind] at last
          obtain rfl := Option.some.inj last
          exact .inr space
        | some e =>
          rw [behind] at last
          obtain rfl := Option.some.inj last
          exact ih read brace _ behind
      · obtain ⟨⟨t,rest⟩,token,read⟩ := Option.bind_eq_some_iff.mp read
        obtain ⟨ts,others,same⟩ := Option.bind_eq_some_iff.mp read
        obtain rfl := Option.some.inj same
        obtain ⟨used,split⟩ := lexToken_suffix token
        intro d last
        rw [← split,List.getLast?_append] at last
        cases behind : rest.getLast? with
        | some e =>
          rw [behind] at last
          obtain rfl := Option.some.inj last
          cases ts with
          | nil => exact .inr (lex_empty others _ (List.mem_of_getLast? behind))
          | cons u ts =>
            rw [List.getLast?_cons_cons] at brace
            exact ih others brace _ behind
        | none =>
          obtain rfl := List.getLast?_eq_none_iff.mp behind
          have none : ts = [] := by
            cases n <;> exact (Option.some.inj others).symm
          subst none
          obtain rfl := Option.some.inj brace
          obtain ⟨rfl,rfl⟩ := lexToken_rbrace token
          rw [List.append_nil] at split
          rw [split] at last
          exact .inl (Option.some.inj last).symm

/-! ## Bytes that were cut -/

/-- The bytes of a character beyond ASCII are all beyond ASCII. -/
theorem encodeChar_bytes (c : Char) : (c.toNat < 128 → String.utf8EncodeChar c = [UInt8.ofNat c.toNat]) ∧
    (128 ≤ c.toNat → ∀ b ∈ String.utf8EncodeChar c, 128 ≤ b.toNat) := by
  constructor
  · intro small
    exact if_pos (show c.val.toNat ≤ 127 by exact Nat.le_of_lt_succ small)
  · intro large b inside
    have beyond : ¬ c.val.toNat ≤ 127 := Nat.not_le.mpr large
    simp only [String.utf8EncodeChar,if_neg beyond] at inside
    split_ifs at inside <;> simp only [List.mem_cons,List.not_mem_nil,or_false] at inside
    all_goals
      rcases inside with rfl | rfl | rfl | rfl <;> simp only [UInt8.toNat_ofNat'] <;> omega

theorem utf8_nil : utf8 [] = [] := rfl

theorem utf8_cons (c : Char) (cs : List Char) : utf8 (c :: cs) = String.utf8EncodeChar c ++ utf8 cs := rfl

theorem utf8_append (cs ds : List Char) : utf8 (cs ++ ds) = utf8 cs ++ utf8 ds := List.flatMap_append

/-- Bytes that are cut inside a character end beyond ASCII. -/
theorem utf8_take (cs : List Char) (n : Nat) :
    (∃ k, (utf8 cs).take n = utf8 (cs.take k)) ∨ ∃ b ∈ ((utf8 cs).take n).getLast?, 128 ≤ b.toNat := by
  induction cs generalizing n with
  | nil => exact .inl ⟨0,by simp [utf8]⟩
  | cons c cs ih =>
    rw [utf8_cons]
    by_cases whole : (String.utf8EncodeChar c).length ≤ n
    · rw [List.take_append,List.take_of_length_le whole]
      rcases ih (n - (String.utf8EncodeChar c).length) with ⟨k,same⟩ | ⟨b,last,large⟩
      · exact .inl ⟨k + 1,by rw [same,List.take_succ_cons,utf8_cons]⟩
      · refine .inr ⟨b,?_,large⟩
        rw [List.getLast?_append,Option.mem_def.mp last]
        rfl
    · rw [List.take_append_of_le_length (by omega)]
      cases n with
      | zero => exact .inl ⟨0,rfl⟩
      | succ n =>
        have beyond : 128 ≤ c.toNat := by
          by_contra small
          rw [(encodeChar_bytes c).1 (Nat.not_le.mp small)] at whole
          simp at whole
        have part : (String.utf8EncodeChar c).take (n+1) ≠ [] := by simp [String.utf8EncodeChar_ne_nil]
        have last := List.getLast?_eq_some_getLast part
        generalize ((String.utf8EncodeChar c).take (n+1)).getLast part = b at last
        exact .inr ⟨b,last,(encodeChar_bytes c).2 beyond b (List.mem_of_mem_take (List.mem_of_getLast? last))⟩

theorem utf8Decode?_some {bytes : List UInt8} {cs : List Char} (decoded : utf8Decode? bytes = some cs) : bytes = utf8 cs := by
  obtain ⟨array,whole,rfl⟩ := Option.map_eq_some_iff.mp decoded
  have valid : bytes.toByteArray.utf8Decode?.isSome := by rw [whole]; rfl
  have same := @ByteArray.utf8Encode_get_utf8Decode? bytes.toByteArray valid
  simp only [whole,Option.get_some] at same
  have lists := congrArg (fun b : ByteArray => b.data.toList) same
  simpa [utf8,List.utf8Encode] using lists.symm

/-- Bytes of which the last is beyond ASCII are read as a text of which the last character is. -/
theorem utf8_last {cs : List Char} {b : UInt8} (last : b ∈ (utf8 cs).getLast?) (large : 128 ≤ b.toNat) :
    ∃ c ∈ cs.getLast?, 128 ≤ c.toNat := by
  rcases List.eq_nil_or_concat cs with rfl | ⟨cs,c,rfl⟩
  · cases last
  · refine ⟨c,by simp,?_⟩
    by_contra small
    rw [List.concat_eq_append,utf8_append,utf8_cons,(encodeChar_bytes c).1 (Nat.not_le.mp small)] at last
    obtain rfl : UInt8.ofNat c.toNat = b := by simpa [utf8_nil] using last
    rw [UInt8.toNat_ofNat'] at large
    omega

theorem utf8Repair_last {n : Nat} {bytes : List UInt8} (enough : bytes.length ≤ n) {b : UInt8} (last : b ∈ bytes.getLast?)
    (large : 128 ≤ b.toNat) : ∃ c ∈ (utf8Repair n bytes).getLast?, 128 ≤ c.toNat := by
  induction n generalizing bytes with
  | zero =>
    obtain rfl := List.length_eq_zero_iff.mp (Nat.le_zero.mp enough)
    cases last
  | succ n ih =>
    cases bytes with
    | nil => cases last
    | cons a bytes =>
      simp only [utf8Repair]
      split
      · rename_i k cs found
        obtain ⟨k',inside,chosen⟩ := List.exists_of_findSome?_eq_some found
        obtain ⟨cs',decoded,single⟩ := Option.bind_eq_some_iff.mp chosen
        split_ifs at single with one
        obtain ⟨rfl,rfl⟩ := Prod.mk.inj (Option.some.inj single)
        have positive : 0 < k' := (by decide : ∀ k ∈ [1,2,3,4], 0 < k) k' inside
        rw [List.getLast?_append]
        by_cases all : (a :: bytes).drop k' = []
        · have text := utf8Decode?_some decoded
          rw [List.take_of_length_le (List.drop_eq_nil_iff.mp all)] at text
          rw [text] at last
          rw [all]
          obtain ⟨c,there,beyond⟩ := utf8_last last large
          exact ⟨c,by cases n <;> simpa [utf8Repair] using there,beyond⟩
        · have short : ¬ (a :: bytes).length ≤ k' := fun covers => all (List.drop_eq_nil_of_le covers)
          have behind : b ∈ ((a :: bytes).drop k').getLast? := by
            rw [List.getLast?_drop,if_neg short]
            exact last
          obtain ⟨c,there,beyond⟩ := ih (by simp at enough ⊢; omega) behind
          exact ⟨c,by rw [Option.mem_def.mp there]; rfl,beyond⟩
      · rw [List.getLast?_cons]
        cases bytes with
        | nil => exact ⟨replacement,by cases n <;> rfl,by decide⟩
        | cons d bytes =>
          rw [List.getLast?_cons_cons] at last
          obtain ⟨c,there,beyond⟩ := ih (by simpa using enough) last
          exact ⟨c,by rw [Option.mem_def.mp there]; rfl,beyond⟩

theorem decodeUtf8_last {bytes : List UInt8} {b : UInt8} (last : b ∈ bytes.getLast?)
    (large : 128 ≤ b.toNat) : ∃ c ∈ (decodeUtf8 bytes).getLast?, 128 ≤ c.toNat := by
  cases decoded : utf8Decode? bytes with
  | some cs =>
    rw [decodeUtf8,decoded]
    rw [utf8Decode?_some decoded] at last
    exact utf8_last last large
  | none =>
    rw [decodeUtf8,decoded]
    exact utf8Repair_last (Nat.le_refl _) last large

theorem utf8_brace (cs : List Char) : utf8 ('{' :: cs) = 0x7B :: utf8 cs := by
  rw [utf8_cons,(encodeChar_bytes '{').1 (by decide)]
  rfl

theorem decodeUtf8_brace (bytes : List UInt8) : ∃ cs, decodeUtf8 (0x7B :: bytes) = '{' :: cs := by
  cases decoded : utf8Decode? (0x7B :: bytes) with
  | some cs =>
    refine ⟨cs.tail,?_⟩
    rw [decodeUtf8,decoded]
    have same := utf8Decode?_some decoded
    cases cs with
    | nil => cases same
    | cons c cs =>
      rw [utf8_cons] at same
      have ascii : c.toNat < 128 := by
        by_contra large
        have beyond := (encodeChar_bytes c).2 (Nat.not_lt.mp large)
        cases bytes' : String.utf8EncodeChar c with
        | nil => exact String.utf8EncodeChar_ne_nil bytes'
        | cons b bs =>
          rw [bytes'] at same beyond
          obtain rfl : 0x7B = b := (List.cons.inj same).1
          exact absurd (beyond _ List.mem_cons_self) (by decide)
      rw [(encodeChar_bytes c).1 ascii] at same
      have code : c.toNat = 123 := by
        have first : 123 = (UInt8.ofNat c.toNat).toNat := congrArg UInt8.toNat (List.cons.inj same).1
        rw [UInt8.toNat_ofNat'] at first
        omega
      obtain rfl : c = '{' := Char.toNat_inj.mp code
      rfl
  | none =>
    have one : utf8Decode? [0x7B] = some ['{'] := utf8Decode?_utf8 ['{']
    refine ⟨utf8Repair bytes.length bytes,?_⟩
    rw [decodeUtf8,decoded]
    simp [utf8Repair,one]

/-- A value that begins with a brace is an object. -/
theorem parse_brace {cs : List Char} {j : Json} (read : parse ('{' :: cs) = some j) : ∃ es, j = .obj es := by
  have lexed := parse_some read
  obtain ⟨ts,-,same⟩ := Option.bind_eq_some_iff.mp lexed
  have first := Option.some.inj same
  cases j with
  | obj es => exact ⟨es,rfl⟩
  | arr js => cases js <;> simp [tokens] at first
  | _ => simp [tokens] at first

/-- What is read of an object whose bytes were cut is the object, but for white space. -/
theorem unmarshal_cut {cs : List Char} {j k : Json} (whole : parse ('{' :: cs) = some j) {n : Nat}
    (read : unmarshal ((utf8 ('{' :: cs)).take n) = some k) :
    ∃ m, (utf8 ('{' :: cs)).take n = utf8 (('{' :: cs).take m) ∧ ∀ c ∈ ('{' :: cs).drop m, isSpace c = true := by
  obtain ⟨es,rfl⟩ : ∃ es, k = .obj es := by
    cases n with
    | zero =>
      rw [List.take_zero,← utf8_nil,unmarshal,decodeUtf8_utf8] at read
      cases read
    | succ n =>
      rw [utf8_brace,List.take_succ_cons,unmarshal] at read
      obtain ⟨text,decoded⟩ := decodeUtf8_brace ((utf8 cs).take n)
      rw [decoded] at read
      exact parse_brace read
  rcases utf8_take ('{' :: cs) n with ⟨m,cut⟩ | ⟨b,last,large⟩
  · refine ⟨m,cut,?_⟩
    rw [cut,unmarshal,decodeUtf8_utf8] at read
    exact parse_cut read (by rw [List.take_append_drop]; exact whole)
  · obtain ⟨c,there,beyond⟩ := decodeUtf8_last last large
    rcases lex_last (parse_some read) (tokens_obj_ends es) c there with rfl | space
    · exact absurd beyond (by decide)
    · have ascii : ((c = ' ' ∨ c = '\n') ∨ c = '\r') ∨ c = '\t' := by simpa [isSpace] using space
      rcases ascii with ((rfl | rfl) | rfl) | rfl <;> exact absurd beyond (by decide)

end Zasper.CutTexts
