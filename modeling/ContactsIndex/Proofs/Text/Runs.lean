import ContactsIndex.Proofs.Text.Words
import Mathlib.Data.List.Chain

/-!
# The runs of a text

A text is in one way a sequence of runs: stretches without a blank that the text's blanks
keep apart, so none of them can be made longer (`Runs`). They are its words
(`runs_iff`). A tidy text is such runs with one space between neighbours, and has no other
blanks (`tidy_intercalate`). What stands between blanks may be tidied on its own
(`normalize_append_gap`).
-/

namespace ContactsIndex

def IsGap (text : List Char) : Prop :=
  ∀ c ∈ text, isBlank c = true

/-- The longest stretches of the text that have no blank, in order. -/
inductive Runs : List Char → List (List Char) → Prop where
  | none {text : List Char} : IsGap text → Runs text []
  | next {gap run rest : List Char} {runs : List (List Char)} : IsGap gap → IsWord run →
      (∀ c ∈ rest.head?, isBlank c = true) → Runs rest runs → Runs (gap ++ run ++ rest) (run :: runs)

/-! ## Words between blanks -/

theorem words_cons_blank {c : Char} (hc : isBlank c = true) (text : List Char) : words (c :: text) = words text :=
  words_append_blank hc [] text

theorem words_gap_append {gap : List Char} (h : IsGap gap) (text : List Char) : words (gap ++ text) = words text := by
  induction gap with
  | nil => rfl
  | cons c gap ih =>
    rw [List.cons_append, words_cons_blank (h c (List.mem_cons_self ..))]
    exact ih fun d hd => h d (List.mem_cons_of_mem _ hd)

theorem words_gap {gap : List Char} (h : IsGap gap) : words gap = [] := by
  have hgap := words_gap_append h []
  rwa [List.append_nil] at hgap

theorem words_append_gap {gap : List Char} (h : IsGap gap) (hne : gap ≠ []) (before after : List Char) :
    words (before ++ gap ++ after) = words before ++ words after := by
  cases gap with
  | nil => exact absurd rfl hne
  | cons c gap =>
    have hgap : IsGap gap := fun d hd => h d (List.mem_cons_of_mem _ hd)
    rw [List.append_assoc, List.cons_append, words_append_blank (h c (List.mem_cons_self ..)), words_gap_append hgap]

theorem words_word_append {word rest : List Char} (hw : IsWord word) (hr : ∀ c ∈ rest.head?, isBlank c = true) :
    words (word ++ rest) = word :: words rest := by
  cases rest with
  | nil => rw [List.append_nil, words_of_isWord hw]; rfl
  | cons c rest =>
    have hc : isBlank c = true := hr c rfl
    rw [words_append_blank hc, words_of_isWord hw, words_cons_blank hc, List.singleton_append]

/-! ## The runs are the words -/

theorem Runs.words_eq {text : List Char} {runs : List (List Char)} (h : Runs text runs) : words text = runs := by
  induction h with
  | none hgap => exact words_gap hgap
  | next hgap hrun hrest _ ih => rw [List.append_assoc, words_gap_append hgap, words_word_append hrun hrest, ih]

theorem exists_runs (text : List Char) : ∃ runs, Runs text runs := by
  induction text with
  | nil => exact ⟨[], .none fun _ hc => nomatch hc⟩
  | cons c text ih =>
    obtain ⟨runs, h⟩ := ih
    by_cases hc : isBlank c
    · cases h with
      | none hgap => exact ⟨[], .none (List.forall_mem_cons.mpr ⟨hc, hgap⟩)⟩
      | @next gap run rest runs hgap hrun hrest h =>
        have hgap : IsGap (c :: gap) := List.forall_mem_cons.mpr ⟨hc, hgap⟩
        exact ⟨run :: runs, .next hgap hrun hrest h⟩
    · have hword : ∀ run, (∀ d ∈ run, isBlank d = false) → IsWord (c :: run) := fun run hrun =>
        ⟨List.cons_ne_nil _ _, List.forall_mem_cons.mpr ⟨by simpa using hc, hrun⟩⟩
      have hone : IsWord [c] := hword [] fun _ hd => nomatch hd
      have hnone : IsGap [] := fun _ hd => nomatch hd
      -- the character begins the first run of the text, or is a run of its own before a blank
      cases h with
      | none hgap =>
        have hhead : ∀ d ∈ text.head?, isBlank d = true := fun d hd => hgap d (List.mem_of_mem_head? hd)
        exact ⟨[[c]], .next hnone hone hhead (.none hgap)⟩
      | @next gap run rest runs hgap hrun hrest h =>
        cases gap with
        | nil => exact ⟨(c :: run) :: runs, .next hnone (hword run hrun.2) hrest h⟩
        | cons d gap =>
          have hhead : ∀ e ∈ (d :: gap ++ run ++ rest).head?, isBlank e = true := by
            simpa using hgap d (List.mem_cons_self ..)
          exact ⟨[c] :: run :: runs, .next hnone hone hhead (.next hgap hrun hrest h)⟩

theorem runs_iff {text : List Char} {runs : List (List Char)} : Runs text runs ↔ words text = runs := by
  constructor
  · exact Runs.words_eq
  · rintro rfl
    obtain ⟨runs, h⟩ := exists_runs text
    rwa [h.words_eq]

/-! ## Tidy texts -/

/-- The only blanks of the text are single spaces within it. -/
structure Tidy (text : List Char) : Prop where
  spaces : ∀ c ∈ text, isBlank c = true → c = ' '
  start : ∀ c ∈ text.head?, isBlank c = false
  finish : ∀ c ∈ text.getLast?, isBlank c = false
  single : text.IsChain fun c d => isBlank c = false ∨ isBlank d = false

theorem tidy_nil : Tidy [] where
  spaces _ hc := nomatch hc
  start _ hc := nomatch hc
  finish _ hc := nomatch hc
  single := .nil

theorem IsWord.tidy {word : List Char} (h : IsWord word) : Tidy word where
  spaces c hc hblank := by simp [h.2 c hc] at hblank
  start c hc := h.2 c (List.mem_of_mem_head? hc)
  finish c hc := h.2 c (List.mem_of_mem_getLast? hc)
  single := (List.pairwise_of_forall_mem_list fun c hc _ _ => .inl (h.2 c hc)).isChain

theorem Tidy.word_append {word rest : List Char} (h : Tidy rest) (hne : rest ≠ []) (hw : IsWord word) :
    Tidy (word ++ [' '] ++ rest) where
  spaces c hc hblank := by
    simp only [List.mem_append, List.mem_singleton] at hc
    rcases hc with (hc | hc) | hc
    · exact hw.tidy.spaces c hc hblank
    · exact hc
    · exact h.spaces c hc hblank
  start c hc := by
    rw [List.append_assoc, List.head?_append_of_ne_nil _ hw.1] at hc
    exact hw.tidy.start c hc
  finish c hc := by
    rw [List.getLast?_append_of_ne_nil _ hne] at hc
    exact h.finish c hc
  single := by
    -- a word stands before the space, and no blank follows it
    refine List.isChain_append.mpr ⟨List.isChain_append.mpr ⟨hw.tidy.single, .singleton _, ?_⟩, h.single, ?_⟩
    · exact fun c hc _ _ => .inl (hw.tidy.finish c hc)
    · exact fun _ _ d hd => .inr (h.start d hd)

theorem tidy_intercalate {ws : List (List Char)} (h : ∀ word ∈ ws, IsWord word) : Tidy ([' '].intercalate ws) := by
  induction ws with
  | nil => exact tidy_nil
  | cons word ws ih =>
    have hword := h word (List.mem_cons_self ..)
    have ih := ih fun other ho => h other (List.mem_cons_of_mem _ ho)
    cases ws with
    | nil => rw [List.intercalate_singleton]; exact hword.tidy
    | cons next ws =>
      have hne : [' '].intercalate (next :: ws) ≠ [] := by
        intro hnil
        have hwords := words_intercalate fun other ho => h other (List.mem_cons_of_mem _ ho)
        rw [hnil] at hwords
        cases hwords
      rw [List.intercalate_cons_cons]
      exact ih.word_append hne hword

theorem tidy_normalize (text : String) : Tidy (normalize text).toList := by
  rw [normalize, String.toList_ofList]
  exact tidy_intercalate fun _ => isWord_of_mem_words

theorem normalize_eq_iff_runs {text other : String} :
    normalize text = normalize other ↔ ∃ runs, Runs text.toList runs ∧ Runs other.toList runs := by
  rw [normalize_eq_iff]
  constructor
  · exact fun h => ⟨words text.toList, runs_iff.mpr rfl, runs_iff.mpr h.symm⟩
  · intro ⟨runs, h, h'⟩
    rw [h.words_eq, h'.words_eq]

theorem normalize_append_gap (before after : String) {gap : String} (hne : gap ≠ "") (h : IsGap gap.toList) :
    normalize (before ++ gap ++ after) = normalize (normalize before ++ gap ++ normalize after) := by
  have hgap : gap.toList ≠ [] := fun hnil => hne (String.toList_eq_nil_iff.mp hnil)
  rw [normalize_eq_iff]
  simp only [String.toList_append, words_append_gap h hgap, words_normalize]

/-- The tidy form of a text is its runs with one space between neighbours, and has no other blanks.
It is tidy already, belongs to all texts with these runs and to no others, and may be made of a text
whose parts were tidied before. -/
theorem normalize_canonical (text : String) :
    (∃ runs, Runs text.toList runs ∧ (∀ other, Runs text.toList other → other = runs) ∧
      normalize text = String.ofList ([' '].intercalate runs)) ∧
    Tidy (normalize text).toList ∧
    normalize (normalize text) = normalize text ∧
    (∀ other, normalize text = normalize other ↔ ∃ runs, Runs text.toList runs ∧ Runs other.toList runs) ∧
    ∀ gap after : String, gap ≠ "" → IsGap gap.toList →
      normalize (text ++ gap ++ after) = normalize (normalize text ++ gap ++ normalize after) := by
  have honly : ∀ other, Runs text.toList other → other = words text.toList := fun other h => h.words_eq.symm
  exact ⟨⟨words text.toList, runs_iff.mpr rfl, honly, rfl⟩, tidy_normalize text, normalize_normalize text,
    fun other => normalize_eq_iff_runs, fun gap after => normalize_append_gap text after⟩

end ContactsIndex
