import Talos.Encoding.Text
import Mathlib.Data.List.DropRight

/-!
# Words

What a separator joins can be read back when no part is empty or contains it. The words of a text
are its parts between white space, and a text that is trimmed and has its white space collapsed is
its words with one space between two of them (`collapse_trimSpace`).
-/

namespace Talos.Encoding

/-- `text.replace(/\s+/g, " ")`, with whether the units before `text` end with white space. -/
def collapse (inRun : Bool) : Utf16 → Utf16
  | [] => []
  | u :: rest =>
      if isStrWhiteSpace u then
        if inRun then collapse true rest else 0x20 :: collapse true rest
      else u :: collapse false rest

def words (text : Utf16) : List Utf16 := (text.splitOnP isStrWhiteSpace).filter (· ≠ [])

example : collapse false (trimSpace [0x20, 97, 0x20, 9, 98, 0x20]) = [97, 0x20, 98] := by decide

/-! ### Joined parts -/

section

variable {α : Type} {sep : α} {parts parts' : List (List α)}

theorem joined_eq_nil [DecidableEq α] (nonempty : [] ∉ parts) (free : ∀ w ∈ parts, sep ∉ w)
    (joined : [sep].intercalate parts = []) : parts = [] := by
  by_contra some
  have split := List.splitOn_intercalate sep free some
  rw [joined, List.splitOn_nil] at split
  exact nonempty (split ▸ List.mem_singleton_self _)

theorem joined_inj [DecidableEq α] (nonempty : [] ∉ parts) (nonempty' : [] ∉ parts')
    (free : ∀ w ∈ parts, sep ∉ w) (free' : ∀ w ∈ parts', sep ∉ w) :
    [sep].intercalate parts = [sep].intercalate parts' ↔ parts = parts' := by
  refine ⟨fun same => ?_, fun same => same ▸ rfl⟩
  by_cases none : parts = []
  · rw [none, List.intercalate_nil] at same
    rw [none, joined_eq_nil nonempty' free' same.symm]
  · by_cases none' : parts' = []
    · rw [none', List.intercalate_nil] at same
      exact absurd (joined_eq_nil nonempty free same) none
    · rw [← List.splitOn_intercalate sep free none, same,
        List.splitOn_intercalate sep free' none']

/-- Texts that a separator joins determine the values they are made of. -/
theorem joined_map_inj {β : Type} [DecidableEq α] {text : β → List α} {values values' : List β}
    (each : ∀ b ∈ values, text b ≠ [] ∧ sep ∉ text b)
    (each' : ∀ b ∈ values', text b ≠ [] ∧ sep ∉ text b)
    (inj : ∀ b ∈ values, ∀ b' ∈ values', text b = text b' → b = b')
    (same : [sep].intercalate (values.map text) = [sep].intercalate (values'.map text)) :
    values = values' := by
  have parts : ∀ {l : List β}, (∀ b ∈ l, text b ≠ [] ∧ sep ∉ text b) →
      [] ∉ l.map text ∧ ∀ w ∈ l.map text, sep ∉ w := by
    intro l each
    constructor
    · intro mem
      obtain ⟨b, found, none⟩ := List.mem_map.mp mem
      exact (each b found).1 none
    · intro w mem
      obtain ⟨b, found, rfl⟩ := List.mem_map.mp mem
      exact (each b found).2
  have texts : values.map text = values'.map text :=
    (joined_inj (parts each).1 (parts each').1 (parts each).2 (parts each').2).mp same
  clear each each' same parts
  induction values generalizing values' with
  | nil => exact (List.map_eq_nil_iff.mp texts.symm).symm
  | cons b values ih =>
      cases values' with
      | nil => exact absurd texts (List.cons_ne_nil _ _)
      | cons b' values' =>
          obtain ⟨first, rest⟩ := List.cons.inj texts
          rw [inj b List.mem_cons_self b' List.mem_cons_self first,
            ih (fun c mem c' mem' => inj c (List.mem_cons_of_mem _ mem) c'
              (List.mem_cons_of_mem _ mem')) rest]

/-- A joined text has the units of its parts and of what separates them. -/
theorem mem_joined {between : List α} {u : α} (mem : u ∈ between.intercalate parts) :
    u ∈ between ∨ ∃ w ∈ parts, u ∈ w := by
  induction parts with
  | nil => cases mem
  | cons w parts ih =>
      cases parts with
      | nil => exact .inr ⟨w, List.mem_singleton_self w, by simpa using mem⟩
      | cons w' parts =>
          rw [List.intercalate_cons_cons, List.append_assoc] at mem
          rcases List.mem_append.mp mem with first | later
          · exact .inr ⟨w, List.mem_cons_self, first⟩
          · rcases List.mem_append.mp later with separator | rest
            · exact .inl separator
            · exact (ih rest).imp_right fun ⟨v, found, part⟩ =>
                ⟨v, List.mem_cons_of_mem _ found, part⟩

/-- The first part, and each later one after a separator. -/
theorem joined_cons (w : List α) (parts : List (List α)) :
    [sep].intercalate (w :: parts) = w ++ parts.flatMap (sep :: ·) := by
  induction parts generalizing w with
  | nil => simp
  | cons v parts ih =>
      rw [List.intercalate_cons_cons, ih, List.flatMap_cons, List.append_assoc]
      rfl

end

/-! ### The words of a text -/

variable {text text' x y : Utf16} {u : UInt16}

theorem words_append (space : isStrWhiteSpace u = true) (x y : Utf16) :
    words (x ++ u :: y) = words x ++ words y := by
  rw [words, List.splitOnP_append_cons x y space, List.filter_append]
  rfl

theorem words_cons (space : isStrWhiteSpace u = true) (y : Utf16) : words (u :: y) = words y :=
  words_append space [] y

theorem words_concat (space : isStrWhiteSpace u = true) (x : Utf16) :
    words (x ++ [u]) = words x :=
  (words_append space x []).trans (List.append_nil _)

theorem words_trimSpace (text : Utf16) : words (trimSpace text) = words text := by
  have start : ∀ l : Utf16, words (l.dropWhile isStrWhiteSpace) = words l := by
    intro l
    induction l with
    | nil => rfl
    | cons u l ih =>
        by_cases space : isStrWhiteSpace u = true
        · rw [List.dropWhile_cons_of_pos space, ih, words_cons space]
        · rw [List.dropWhile_cons_of_neg space]
  have last : ∀ l : Utf16, words (l.rdropWhile isStrWhiteSpace) = words l := by
    intro l
    induction l using List.reverseRecOn with
    | nil => rfl
    | append_singleton l u ih =>
        by_cases space : isStrWhiteSpace u = true
        · rw [List.rdropWhile_concat_pos _ _ _ space, ih, words_concat space]
        · rw [List.rdropWhile_concat_neg _ _ _ space]
  exact (last _).trans (start text)

/-- The parts have the letters of the text between its separators. -/
theorem mem_splitOnP {α : Type} {p : α → Bool} {text : List α} :
    ∀ w ∈ text.splitOnP p, ∀ u ∈ w, u ∈ text ∧ p u = false := by
  induction text with
  | nil => simp
  | cons u text ih =>
      have later : ∀ {w : List α}, (∀ v ∈ w, v ∈ text ∧ p v = false) →
          ∀ v ∈ w, v ∈ u :: text ∧ p v = false :=
        fun inside v mem => (inside v mem).imp_left (List.mem_cons_of_mem _)
      rw [List.splitOnP_cons_eq_if_modifyHead]
      split
      · exact List.forall_mem_cons.mpr ⟨List.forall_mem_nil _, fun w mem => later (ih w mem)⟩
      · rename_i letter
        cases split : text.splitOnP p with
        | nil => exact absurd split (List.splitOnP_ne_nil _ _)
        | cons w parts =>
            rw [split] at ih
            obtain ⟨first, rest⟩ := List.forall_mem_cons.mp ih
            refine List.forall_mem_cons.mpr ⟨List.forall_mem_cons.mpr ⟨?_, later first⟩,
              fun w mem => later (rest w mem)⟩
            exact ⟨List.mem_cons_self, Bool.eq_false_iff.mpr letter⟩

theorem nil_notMem_words : [] ∉ words text := fun mem =>
  of_decide_eq_true (List.mem_filter.mp mem).2 rfl

theorem mem_words {w : Utf16} (mem : w ∈ words text) :
    ∀ u ∈ w, u ∈ text ∧ isStrWhiteSpace u = false :=
  mem_splitOnP w (List.mem_filter.mp mem).1

theorem words_free : ∀ w ∈ words text, 0x20 ∉ w := by
  intro w mem space
  exact absurd (mem_words mem _ space).2 (by decide)

/-! ### Collapsing -/

/-- Within a run the rest of a text becomes its words; else what stands before the first white
space is still to be written. -/
theorem collapse_spec (ends : ∀ u ∈ text.getLast?, isStrWhiteSpace u = false) :
    ∃ first later, text.splitOnP isStrWhiteSpace = first :: later ∧
      collapse true text = [0x20].intercalate (words text) ∧
      collapse false text = first ++ (later.filter (· ≠ [])).flatMap (0x20 :: ·) ∧
      (text ≠ [] → words text ≠ []) := by
  induction text with
  | nil => exact ⟨[], [], rfl, rfl, rfl, fun ne => absurd rfl ne⟩
  | cons u rest ih =>
      have endsRest : ∀ v ∈ rest.getLast?, isStrWhiteSpace v = false := by
        intro v mem
        refine ends v ?_
        rw [List.getLast?_cons, Option.mem_def.mp mem]
        rfl
      obtain ⟨first, later, split, within, after, some⟩ := ih endsRest
      by_cases space : isStrWhiteSpace u = true
      · have more : rest ≠ [] := by
          rintro rfl
          exact Bool.false_ne_true ((ends u rfl).symm.trans space)
        obtain ⟨w, ws, words⟩ := List.exists_cons_of_ne_nil (some more)
        refine ⟨[], first :: later, ?_, ?_, ?_, ?_⟩
        · rw [List.splitOnP_cons_eq_if_modifyHead, if_pos space, split]
        · rw [collapse, if_pos space, if_pos rfl, within, words_cons space]
        · rw [collapse, if_pos space, if_neg Bool.false_ne_true, within, ← split]
          change _ = (Encoding.words rest).flatMap (0x20 :: ·)
          rw [words, joined_cons, List.flatMap_cons]
          rfl
        · rw [words_cons space]
          exact fun _ => some more
      · have parts : (u :: rest).splitOnP isStrWhiteSpace = (u :: first) :: later := by
          rw [List.splitOnP_cons_eq_if_modifyHead, if_neg space, split]
          rfl
        have words : words (u :: rest) = (u :: first) :: later.filter (· ≠ []) := by
          rw [words, parts]
          rfl
        refine ⟨u :: first, later, parts, ?_, ?_, ?_⟩
        · rw [collapse, if_neg space, after, words, joined_cons]
          rfl
        · rw [collapse, if_neg space, after]
          rfl
        · rw [words]
          exact fun _ => List.cons_ne_nil _ _

theorem trimSpace_head {rest : Utf16} (trimmed : trimSpace text = u :: rest) :
    isStrWhiteSpace u = false := by
  obtain ⟨last, cut⟩ : trimSpace text <+: text.dropWhile isStrWhiteSpace :=
    List.rdropWhile_prefix _ _
  have head := List.head?_dropWhile_not isStrWhiteSpace text
  rw [← cut, trimmed] at head
  exact head

theorem trimSpace_last : ∀ u ∈ (trimSpace text).getLast?, isStrWhiteSpace u = false := by
  intro u mem
  obtain ⟨ne, rfl⟩ := List.mem_getLast?_eq_getLast mem
  exact Bool.eq_false_iff.mpr (List.rdropWhile_last_not _ _ ne)

theorem collapse_trimSpace (text : Utf16) :
    collapse false (trimSpace text) = [0x20].intercalate (words text) := by
  have ends : ∀ u ∈ (trimSpace text).getLast?, isStrWhiteSpace u = false := trimSpace_last
  obtain ⟨first, later, split, within, -, -⟩ := collapse_spec ends
  rw [← words_trimSpace, ← within]
  cases trimmed : trimSpace text with
  | nil => rfl
  | cons u rest =>
      have letter : ¬ isStrWhiteSpace u = true := Bool.eq_false_iff.mp (trimSpace_head trimmed)
      rw [collapse, if_neg letter, collapse, if_neg letter]

theorem collapse_eq_iff :
    collapse false (trimSpace text) = collapse false (trimSpace text') ↔
      words text = words text' := by
  rw [collapse_trimSpace, collapse_trimSpace]
  exact joined_inj nil_notMem_words nil_notMem_words words_free words_free

end Talos.Encoding
