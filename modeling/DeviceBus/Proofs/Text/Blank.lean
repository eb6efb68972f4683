import DeviceBus.Text.Blank

/-! What trimming leaves of a text: the part between the blanks on its sides, which neither begins nor ends with one. -/
namespace DeviceBus.Blank

def Blanks (text : List Char) : Prop := ∀ c ∈ text, isBlank c = true

structure Bare (text : List Char) : Prop where
  first : ∀ c ∈ text.head?, isBlank c = false
  last : ∀ c ∈ text.getLast?, isBlank c = false

variable {text inner before after : List Char}

private theorem trimLeft_append (early : Blanks before) (text : List Char) : trimLeft (before ++ text) = trimLeft text :=
  List.dropWhile_append_of_pos early

private theorem trimLeft_eq_self (first : ∀ c ∈ text.head?, isBlank c = false) : trimLeft text = text := by
  cases text with
  | nil => rfl
  | cons c text => exact List.dropWhile_cons_of_neg (by rw [first c rfl]; exact Bool.false_ne_true)

private theorem trimRight_append (late : Blanks after) (text : List Char) : trimRight (text ++ after) = trimRight text := by
  have reversed : ∀ c ∈ after.reverse, isBlank c = true := fun c member => late c (List.mem_reverse.mp member)
  rw [trimRight, List.reverse_append, List.dropWhile_append_of_pos reversed, trimRight]

private theorem trimRight_eq_self (last : ∀ c ∈ text.getLast?, isBlank c = false) : trimRight text = text := by
  rw [← List.head?_reverse] at last
  have kept : text.reverse.dropWhile isBlank = text.reverse := trimLeft_eq_self last
  rw [trimRight, kept, List.reverse_reverse]

private theorem head_trimLeft (text : List Char) : ∀ c ∈ (trimLeft text).head?, isBlank c = false := by
  intro c first
  have head := List.head?_dropWhile_not isBlank text
  rw [← trimLeft, Option.mem_def.mp first] at head
  simpa using head

private theorem exists_trimRight (text : List Char) : ∃ after, text = trimRight text ++ after ∧ Blanks after := by
  refine ⟨(text.reverse.takeWhile isBlank).reverse, ?_, fun c member => ?_⟩
  · rw [trimRight, ← List.reverse_append, List.takeWhile_append_dropWhile, List.reverse_reverse]
  · exact List.all_eq_true.mp List.all_takeWhile c (List.mem_reverse.mp member)

theorem bare_trim (text : List Char) : Bare (trim text) := by
  constructor
  · intro c first
    obtain ⟨after, whole, -⟩ := exists_trimRight (trimLeft text)
    refine head_trimLeft text c ?_
    rw [trim] at first
    rw [whole, Option.mem_def, List.head?_append, Option.mem_def.mp first]
    rfl
  · intro c last
    rw [trim, trimRight, List.getLast?_reverse] at last
    exact head_trimLeft _ c last

theorem trim_eq_iff : trim text = inner ↔
    ∃ before after, text = before ++ (inner ++ after) ∧ Blanks before ∧ Blanks after ∧ Bare inner := by
  constructor
  · rintro rfl
    obtain ⟨after, whole, late⟩ := exists_trimRight (trimLeft text)
    refine ⟨text.takeWhile isBlank, after, ?_, List.all_eq_true.mp List.all_takeWhile, late, bare_trim text⟩
    rw [trim, ← whole]
    exact List.takeWhile_append_dropWhile.symm
  · rintro ⟨before, after, rfl, early, late, bare⟩
    rw [trim, trimLeft_append early]
    cases inner with
    | nil =>
      have none : trimLeft (after ++ []) = [] := trimLeft_append late []
      rw [List.append_nil] at none
      rw [List.nil_append, none]
      rfl
    | cons c inner =>
      have kept : trimLeft (c :: inner ++ after) = c :: inner ++ after := trimLeft_eq_self bare.first
      rw [kept, trimRight_append late, trimRight_eq_self bare.last]

theorem trim_isEmpty_iff : (trim text).isEmpty = true ↔ Blanks text := by
  rw [List.isEmpty_iff, trim_eq_iff]
  constructor
  · rintro ⟨before, after, rfl, early, late, -⟩
    exact List.forall_mem_append.mpr ⟨early, late⟩
  · intro blanks
    exact ⟨text, [], by simp, blanks, nofun, nofun, nofun⟩

theorem bare_of_unblank (unblank : ∀ c ∈ text, isBlank c = false) : Bare text :=
  ⟨fun c first => unblank c (List.mem_of_head? first), fun c last => unblank c (List.mem_of_getLast? last)⟩

theorem trim_eq_self (bare : Bare text) : trim text = text :=
  trim_eq_iff.mpr ⟨[], [], (List.append_nil text).symm, List.forall_mem_nil _, List.forall_mem_nil _, bare⟩

theorem trim_surrounded (early : Blanks before) (late : Blanks after) (text : List Char) :
    trim (before ++ (text ++ after)) = trim text := by
  generalize same : trim text = inner
  obtain ⟨first, last, rfl, beginning, ending, bare⟩ := trim_eq_iff.mp same
  refine trim_eq_iff.mpr ⟨before ++ first, last ++ after, ?_, ?_, ?_, bare⟩
  · simp only [List.append_assoc]
  · exact List.forall_mem_append.mpr ⟨early, beginning⟩
  · exact List.forall_mem_append.mpr ⟨ending, late⟩

theorem isBlank_of_isDigit {c : Char} (digit : c.isDigit = true) : isBlank c = false := by
  have bounds : 0x30 ≤ c.toNat ∧ c.toNat ≤ 0x39 := by
    simp only [Char.isDigit, Bool.and_eq_true, decide_eq_true_eq] at digit
    exact digit
  have table : ∀ range ∈ ranges, range.2 < 0x30 ∨ 0x39 < range.1 := by decide
  refine List.any_eq_false.mpr fun range member => ?_
  have apart := table range member
  simp only [Bool.and_eq_true, decide_eq_true_eq]
  omega

end DeviceBus.Blank
