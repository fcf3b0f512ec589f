import ContactsIndex.Text

/-!
# Words and tidy texts

The words of a text are what is left of it between its blanks (`words_eq`), so a blank
splits a text in two for its words (`words_append_blank`). A tidy text has the words of the
text that it was made of (`words_normalize`): tidying twice is tidying once, and texts have
the same tidy form just if they have the same words (`normalize_eq_iff`).
-/

namespace ContactsIndex

def IsWord (word : List Char) : Prop :=
  word ≠ [] ∧ ∀ c ∈ word, isBlank c = false

theorem foldr_pushChar (text : List Char) : ∃ rest, text.splitOnP isBlank = (text.foldr pushChar ([], [])).1 :: rest ∧
    rest.filter (· ≠ []) = (text.foldr pushChar ([], [])).2 := by
  induction text with
  | nil => exact ⟨[], rfl, rfl⟩
  | cons c text ih =>
    obtain ⟨rest, hsplit, hrest⟩ := ih
    rw [List.foldr_cons, List.splitOnP_cons_eq_if_modifyHead, hsplit]
    by_cases hc : isBlank c
    · refine ⟨_, by simp [pushChar, hc]; rfl, ?_⟩
      by_cases hfirst : (text.foldr pushChar ([], [])).1 = [] <;> simp [pushChar, hc, hfirst, ← hrest]
    · exact ⟨rest, by simp [pushChar, hc], by simpa [pushChar, hc] using hrest⟩

theorem words_eq (text : List Char) : words text = (text.splitOnP isBlank).filter (· ≠ []) := by
  obtain ⟨rest, hsplit, hrest⟩ := foldr_pushChar text
  rw [hsplit, words]
  by_cases hfirst : (text.foldr pushChar ([], [])).1 = [] <;> simp [hfirst, ← hrest]

/-! ## What the words are -/

theorem words_append_blank {c : Char} (hc : isBlank c = true) (before after : List Char) :
    words (before ++ c :: after) = words before ++ words after := by
  rw [words_eq, words_eq, words_eq, List.splitOnP_append_cons before after hc, List.filter_append]

theorem words_of_isWord {word : List Char} (h : IsWord word) : words word = [word] := by
  rw [words_eq, List.splitOnP_eq_singleton h.2]
  simp [h.1]

theorem isBlank_of_mem_splitOnP {c : Char} : ∀ {text piece : List Char}, piece ∈ text.splitOnP isBlank → c ∈ piece →
    isBlank c = false
  | [], piece, hpiece, hc => by
    rw [List.splitOnP_nil, List.mem_singleton] at hpiece
    simp [hpiece] at hc
  | first :: text, piece, hpiece, hc => by
    obtain ⟨head, rest, hsplit⟩ := List.exists_cons_of_ne_nil (List.splitOnP_ne_nil isBlank text)
    have ih : ∀ piece ∈ head :: rest, c ∈ piece → isBlank c = false := fun piece hpiece =>
      isBlank_of_mem_splitOnP (hsplit ▸ hpiece)
    rw [List.splitOnP_cons_eq_if_modifyHead, hsplit] at hpiece
    by_cases hfirst : isBlank first
    · rw [if_pos hfirst] at hpiece
      rcases List.mem_cons.mp hpiece with rfl | hpiece
      · cases hc
      · exact ih piece hpiece hc
    · rw [if_neg hfirst, List.modifyHead_cons] at hpiece
      rcases List.mem_cons.mp hpiece with rfl | hpiece
      · rcases List.mem_cons.mp hc with rfl | hc
        · simpa using hfirst
        · exact ih head (List.mem_cons_self ..) hc
      · exact ih piece (List.mem_cons_of_mem _ hpiece) hc

theorem isWord_of_mem_words {text word : List Char} (h : word ∈ words text) : IsWord word := by
  rw [words_eq, List.mem_filter] at h
  exact ⟨by simpa using h.2, fun c hc => isBlank_of_mem_splitOnP h.1 hc⟩

/-! ## Tidy texts -/

theorem words_intercalate {ws : List (List Char)} (h : ∀ word ∈ ws, IsWord word) :
    words ([' '].intercalate ws) = ws := by
  induction ws with
  | nil => rfl
  | cons word ws ih =>
    have hword := words_of_isWord (h word (List.mem_cons_self ..))
    have ih := ih fun other ho => h other (List.mem_cons_of_mem _ ho)
    cases ws with
    | nil => rw [List.intercalate_singleton, hword]
    | cons next ws =>
      rw [List.intercalate_cons_cons, List.append_assoc, List.singleton_append, words_append_blank isBlank_space,
        hword, ih, List.singleton_append]

theorem words_normalize (text : String) : words (normalize text).toList = words text.toList := by
  rw [normalize, String.toList_ofList]
  exact words_intercalate fun _ => isWord_of_mem_words

theorem normalize_eq_iff {text text' : String} : normalize text = normalize text' ↔
    words text.toList = words text'.toList := by
  constructor
  · intro h
    rw [← words_normalize, h, words_normalize]
  · intro h
    rw [normalize, normalize, h]

@[simp] theorem normalize_normalize (text : String) : normalize (normalize text) = normalize text :=
  normalize_eq_iff.mpr (words_normalize text)

end ContactsIndex
