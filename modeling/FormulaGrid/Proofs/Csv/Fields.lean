import FormulaGrid.Csv.Reader
import FormulaGrid.Csv.Writer
import FormulaGrid.Proofs.Text.Blank

/-!
# Fields and their written forms

A line can be read if it has an even number of quotes. A written field always has, and it is read back
as it was guarded: in full if it stands in quotes, otherwise less the blanks at its ends. A written row
is therefore read back field by field, as long as it is not cut at a line feed.
-/

set_option autoImplicit false

namespace FormulaGrid.Csv

theorem fieldsAfter_eq_none_iff (field : Field) (quoted : Bool) (line : List Char) :
    fieldsAfter field quoted line = none ↔ (line.count '"' + quoted.toNat) % 2 = 1 := by
  fun_induction fieldsAfter field quoted line with
  | case1 field => simp
  | case2 field rest ih =>
    rw [ih, List.count_cons_self, List.count_cons_self]
    omega
  | case3 field rest _ ih =>
    rw [ih, List.count_cons_self, Bool.toNat_false, Bool.toNat_true]
    omega
  | case4 field c rest hTwo hOne ih =>
    rw [ih, List.count_cons_of_ne]
    exact fun h => hOne h
  | case5 field => simp
  | case6 field rest ih =>
    rw [ih, List.count_cons_self, Bool.toNat_false, Bool.toNat_true]
  | case7 field rest ih =>
    rw [Option.map_eq_none_iff, ih, List.count_cons_of_ne (by decide)]
  | case8 field c rest hQuote hComma ih =>
    rw [ih, List.count_cons_of_ne]
    exact fun h => hQuote h

theorem fields?_eq_none_iff (line : List Char) :
    fields? line = none ↔ line.count '"' % 2 = 1 :=
  fieldsAfter_eq_none_iff .start false line

def Field.extend (field : Field) (text : List Char) : Field :=
  { field with text := text.reverse ++ field.text }

theorem Field.extend_push (field : Field) (c : Char) (text : List Char) :
    (field.push c).extend text = field.extend (c :: text) := by
  simp [extend, push]

theorem fieldsAfter_plain {text : List Char} (hText : ∀ c ∈ text, c ≠ ',' ∧ c ≠ '"')
    (field : Field) (rest : List Char) :
    fieldsAfter field false (text ++ rest) = fieldsAfter (field.extend text) false rest := by
  induction text generalizing field with
  | nil => rfl
  | cons c text ih =>
    rw [List.forall_mem_cons] at hText
    rw [List.cons_append, fieldsAfter, ih hText.2, Field.extend_push]
    · exact fun h => hText.1.2 h
    · exact fun h => hText.1.1 h

/-- Two quotes inside quotes are one, and one quote that no other follows closes the stretch. -/
theorem fieldsAfter_doubleQuotes (text : List Char) (field : Field) {rest : List Char}
    (hRest : rest.head? ≠ some '"') :
    fieldsAfter field true (doubleQuotes text ++ '"' :: rest) =
      fieldsAfter (field.extend text) false rest := by
  induction text generalizing field with
  | nil =>
    cases rest with
    | nil => rfl
    | cons c rest =>
      rw [doubleQuotes, List.flatMap_nil, List.nil_append, fieldsAfter]
      · rfl
      · rintro _ ⟨⟩
        exact hRest rfl
  | cons c text ih =>
    rw [doubleQuotes, List.flatMap_cons, ← doubleQuotes]
    split
    · rename_i hQuote
      rw [hQuote]
      change fieldsAfter (field.push '"') true (doubleQuotes text ++ '"' :: rest) = _
      rw [ih, Field.extend_push]
    · rename_i hQuote
      rw [List.singleton_append, List.cons_append, fieldsAfter, ih, Field.extend_push]
      · exact fun _ h _ => hQuote h
      · exact hQuote

def readBack (text : List Char) : List Char :=
  if needsQuotes (guarded text) then guarded text else Text.trim (guarded text)

theorem needsQuotes_iff {text : List Char} : needsQuotes text = true ↔
    ',' ∈ text ∨ '"' ∈ text ∨ '\n' ∈ text ∨ '\r' ∈ text := by
  rw [needsQuotes, List.any_eq_true]
  constructor
  · rintro ⟨c, hc, h⟩
    simp only [Bool.or_eq_true, beq_iff_eq] at h
    rcases h with ((rfl | rfl) | rfl) | rfl <;> simp [hc]
  · rintro (h | h | h | h) <;> exact ⟨_, h, rfl⟩

theorem fieldsAfter_writeField (text : List Char) : ∃ field : Field,
    field.finish = String.ofList (readBack text) ∧ ∀ rest : List Char, rest.head? ≠ some '"' →
      fieldsAfter .start false (writeField text ++ rest) = fieldsAfter field false rest := by
  cases hQuotes : needsQuotes (guarded text) with
  | true =>
    refine ⟨({ Field.start with quoted := true } : Field).extend (guarded text), ?_, ?_⟩
    · simp [Field.finish, Field.extend, Field.start, readBack, hQuotes]
    · intro rest hRest
      rw [writeField, if_pos hQuotes, List.append_assoc, List.cons_append, List.singleton_append]
      exact fieldsAfter_doubleQuotes (guarded text) { Field.start with quoted := true } hRest
  | false =>
    have hPlain : ∀ c ∈ guarded text, c ≠ ',' ∧ c ≠ '"' := by
      intro c hc
      rw [← Bool.not_eq_true, needsQuotes_iff] at hQuotes
      constructor
      · rintro rfl
        exact hQuotes (.inl hc)
      · rintro rfl
        exact hQuotes (.inr (.inl hc))
    refine ⟨Field.start.extend (guarded text), ?_, ?_⟩
    · simp [Field.finish, Field.extend, Field.start, readBack, hQuotes]
    · intro rest _
      rw [writeField, if_neg (by simp [hQuotes]), fieldsAfter_plain hPlain]

theorem even_count_writeField (text : List Char) : (writeField text).count '"' % 2 = 0 := by
  obtain ⟨field, _, hRead⟩ := fieldsAfter_writeField text
  have hSome := hRead [] (by simp)
  rw [List.append_nil, fieldsAfter] at hSome
  have hOdd := (not_congr (fields?_eq_none_iff (writeField text))).mp (by simp [fields?, hSome])
  omega

theorem mem_doubleQuotes {text : List Char} {c : Char} : c ∈ doubleQuotes text ↔ c ∈ text := by
  rw [doubleQuotes, List.mem_flatMap]
  constructor
  · rintro ⟨d, hd, h⟩
    split at h
    · simp_all
    · rwa [List.mem_singleton.mp h]
  · intro h
    refine ⟨c, h, ?_⟩
    split <;> simp [*]

theorem count_doubleQuotes (text : List Char) :
    (doubleQuotes text).count '"' = 2 * text.count '"' := by
  induction text with
  | nil => rfl
  | cons c text ih =>
    rw [doubleQuotes, List.flatMap_cons, ← doubleQuotes, List.count_append, ih]
    split
    · rename_i hQuote
      rw [hQuote, List.count_cons_self, List.count_cons_self, List.count_cons_self, List.count_nil]
      omega
    · rename_i hQuote
      rw [List.count_cons_of_ne hQuote, List.count_cons_of_ne hQuote, List.count_nil]
      omega

theorem mem_guarded {text : List Char} {c : Char} (h : c ∈ guarded text) :
    c ∈ text ∨ c = '\'' := by
  rw [guarded] at h
  split at h
  · exact (List.mem_cons.mp h).symm
  · exact .inl h

theorem mem_writeField {text : List Char} {c : Char} (h : c ∈ writeField text) :
    c ∈ text ∨ c = '\'' ∨ c = '"' := by
  rw [writeField] at h
  split at h
  · rw [List.cons_append, List.mem_cons, List.mem_append, List.mem_singleton, mem_doubleQuotes] at h
    rcases h with h | h | h
    · exact .inr (.inr h)
    · exact (mem_guarded h).imp_right .inl
    · exact .inr (.inr h)
  · exact (mem_guarded h).imp_right .inl

theorem newline_of_writeField {text : List Char} (h : '\n' ∈ writeField text) : '\n' ∈ text := by
  rcases mem_writeField h with h | h | h
  · exact h
  · exact absurd h (by decide)
  · exact absurd h (by decide)

theorem getLast?_writeField (text : List Char) : (writeField text).getLast? ≠ some '\r' := by
  rw [writeField]
  split
  · rw [List.getLast?_concat]
    decide
  · rename_i hQuotes
    intro hLast
    exact hQuotes (needsQuotes_iff.mpr (.inr (.inr (.inr (List.mem_of_getLast? hLast)))))

theorem cut_writeField {text : List Char} (h : '\n' ∈ text) : ∃ line more,
    writeField text = line ++ '\n' :: more ∧ '\n' ∉ line ∧ line.count '"' % 2 = 1 := by
  have hGuarded : '\n' ∈ guarded text := by
    rw [guarded]
    split <;> simp [h]
  obtain ⟨before, after, hText, hBefore⟩ := List.eq_append_cons_of_mem hGuarded
  have hQuotes : needsQuotes (guarded text) = true :=
    needsQuotes_iff.mpr (.inr (.inr (.inl hGuarded)))
  refine ⟨'"' :: doubleQuotes before, doubleQuotes after ++ ['"'], ?_, ?_, ?_⟩
  · rw [writeField, if_pos hQuotes, hText]
    simp [doubleQuotes]
  · rw [List.mem_cons, mem_doubleQuotes, not_or]
    exact ⟨by decide, hBefore⟩
  · rw [List.count_cons_self, count_doubleQuotes]
    omega

end FormulaGrid.Csv
