import MoveTx.Text.Blank

/-!
# Blanks around texts

Trimming takes blanks off both ends of a text and nothing else. A text without blanks comes back from
between any blanks.
-/

namespace MoveTx.Text

/-- `s` is `t` with blanks around it, or none. -/
def Pads (s t : String) : Prop :=
  ∃ before after : List Char, s.toList = before ++ t.toList ++ after ∧
    (∀ c ∈ before, isBlank c = true) ∧ ∀ c ∈ after, isBlank c = true

theorem Pads.refl (s : String) : Pads s s :=
  ⟨[], [], (List.append_nil _).symm, nofun, nofun⟩

theorem exists_trimStart (cs : List Char) :
    ∃ before, cs = before ++ trimStart cs ∧ ∀ c ∈ before, isBlank c = true :=
  ⟨cs.takeWhile isBlank, List.takeWhile_append_dropWhile.symm,
    List.all_eq_true.mp List.all_takeWhile⟩

theorem trimStart_append {before : List Char} (blank : ∀ c ∈ before, isBlank c = true)
    (cs : List Char) : trimStart (before ++ cs) = trimStart cs :=
  List.dropWhile_append_of_pos blank

theorem trimStart_blank {cs : List Char} (blank : ∀ c ∈ cs, isBlank c = true) : trimStart cs = [] := by
  have all := trimStart_append blank []
  rwa [List.append_nil] at all

theorem trimStart_cons {c : Char} (visible : isBlank c = false) (cs : List Char) :
    trimStart (c :: cs) = c :: cs :=
  List.dropWhile_cons_of_neg (by rw [visible]; exact Bool.false_ne_true)

/-- What is left of a text was between the blanks that are gone. -/
theorem pads_trim (s : String) : Pads s (trim s) := by
  obtain ⟨before, start, blank⟩ := exists_trimStart s.toList
  obtain ⟨after, ending, blank'⟩ := exists_trimStart (trimStart s.toList).reverse
  refine ⟨before, after.reverse, ?_, blank, fun c inside => blank' c (List.mem_reverse.mp inside)⟩
  have middle := congrArg List.reverse ending
  rw [List.reverse_reverse, List.reverse_append] at middle
  rw [trim, String.toList_ofList, List.append_assoc, ← middle]
  exact start

theorem trim_eq_of_pads {s t : String} (pads : Pads s t) (visible : ∀ c ∈ t.toList, isBlank c = false) :
    trim s = t := by
  obtain ⟨before, after, parts, blank, blank'⟩ := pads
  have behind : ∀ c ∈ after.reverse, isBlank c = true :=
    fun c inside => blank' c (List.mem_reverse.mp inside)
  rw [trim, parts, List.append_assoc, trimStart_append blank]
  cases front : t.toList with
  | nil =>
    rw [List.nil_append, trimStart_blank blank']
    exact (String.toList_eq_nil_iff.mp front).symm
  | cons c cs =>
    have first : isBlank c = false := visible c (by rw [front]; exact List.mem_cons_self)
    rw [List.cons_append, trimStart_cons first, ← List.cons_append, List.reverse_append,
      trimStart_append behind]
    -- The last character is as visible as the first.
    obtain ⟨d, ds, back⟩ := List.exists_cons_of_ne_nil
      (List.reverse_ne_nil_iff.mpr (List.cons_ne_nil c cs))
    have last : isBlank d = false := by
      refine visible d (front ▸ List.mem_reverse.mp ?_)
      rw [back]
      exact List.mem_cons_self
    rw [back, trimStart_cons last, ← back, List.reverse_reverse, ← front, String.ofList_toList]

end MoveTx.Text
