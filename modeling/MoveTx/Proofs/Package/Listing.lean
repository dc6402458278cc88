import Mathlib.Data.List.Forall2
import Mathlib.Data.List.Nodup
import MoveTx.Package.Compiled
import MoveTx.Proofs.ByteOrder
import MoveTx.Proofs.Lookup
import MoveTx.Proofs.Sorting

/-!
# Listings

A disk lists the entries of a folder in an order of its own. What stands at a path does not depend on
that order, and names that were sorted do not either.
-/

namespace MoveTx

namespace FileTree

/-- The same files and folders, where each folder lists every name once and in any order. -/
inductive Relisted : FileTree → FileTree → Prop
  | file (content : Bytes) : Relisted (.file content) (.file content)
  | folder {entries entries' : List (String × FileTree)}
      (distinct : (entries.map (·.1)).Nodup)
      (names : (entries.map (·.1)).Perm (entries'.map (·.1)))
      (inner : ∀ name t t', (name, t) ∈ entries → (name, t') ∈ entries' → Relisted t t') :
      Relisted (.folder entries) (.folder entries')

variable {entries entries' : List (String × FileTree)} {name : String} {t t' : FileTree}

theorem entry?_eq_some_iff (distinct : (entries.map (·.1)).Nodup) :
    entry? entries name = some t ↔ (name, t) ∈ entries := by
  unfold entry?
  rw [Option.map_eq_some_iff]
  constructor
  · rintro ⟨e, found, rfl⟩
    obtain ⟨inside, rfl⟩ := (find?_key_iff distinct).mp found
    exact inside
  · intro inside
    exact ⟨(name, t), (find?_key_iff distinct).mpr ⟨inside, rfl⟩, rfl⟩

theorem entry?_eq_none_iff : entry? entries name = none ↔ name ∉ entries.map (·.1) := by
  unfold entry?
  rw [Option.map_eq_none_iff, List.find?_eq_none, List.mem_map]
  simp only [beq_iff_eq, not_exists, not_and]

theorem exists_of_forall₂ {α β : Type} {r : α → β → Prop} {xs : List α} {ys : List β} {x : α}
    (each : List.Forall₂ r xs ys) (inside : x ∈ xs) : ∃ y ∈ ys, r x y := by
  induction each with
  | nil => cases inside
  | cons here _ ih =>
    rcases List.mem_cons.mp inside with rfl | later
    · exact ⟨_, List.mem_cons_self, here⟩
    · obtain ⟨y, there, related⟩ := ih later
      exact ⟨y, List.mem_cons_of_mem _ there, related⟩

/-- The entries of a folder may change places, and what is in them too. -/
theorem relisted_of_perm {inOrder : List (String × FileTree)} (distinct : (entries.map (·.1)).Nodup)
    (perm : inOrder.Perm entries')
    (each : List.Forall₂ (fun e e' => e.1 = e'.1 ∧ Relisted e.2 e'.2) entries inOrder) :
    Relisted (.folder entries) (.folder entries') := by
  have names : entries.map (·.1) = inOrder.map (·.1) := by
    rw [← List.forall₂_eq_eq_eq, List.forall₂_map_left_iff, List.forall₂_map_right_iff]
    exact each.imp fun _ _ => And.left
  refine .folder distinct (names ▸ perm.map _) fun name t t' inside inside' => ?_
  obtain ⟨⟨_, u⟩, there, rfl, same⟩ := exists_of_forall₂ each inside
  have equal : (name, u) = (name, t') :=
    List.inj_on_of_nodup_map (names ▸ distinct) there (perm.mem_iff.mpr inside') rfl
  obtain rfl := (Prod.mk.inj equal).2
  exact same

namespace Relisted

theorem isFolder (relisted : Relisted t t') : t.isFolder = t'.isFolder := by
  cases relisted <;> rfl

theorem symm (relisted : Relisted t t') : Relisted t' t := by
  induction relisted with
  | file content => exact .file content
  | folder distinct names _ ih =>
    exact .folder (names.nodup_iff.mp distinct) names.symm
      fun name t t' inside inside' => ih name t' t inside' inside

theorem distinct (relisted : Relisted (.folder entries) t') : (entries.map (·.1)).Nodup := by
  cases relisted with
  | folder distinct names inner => exact distinct

theorem listed (relisted : Relisted (.folder entries) (.folder entries'))
    (inside : (name, t) ∈ entries) : ∃ t', (name, t') ∈ entries' ∧ Relisted t t' := by
  cases relisted with
  | folder distinct names inner =>
    obtain ⟨⟨_, t'⟩, inside', rfl⟩ := List.mem_map.mp (names.mem_iff.mp (List.mem_map_of_mem inside))
    exact ⟨t', inside', inner _ t t' inside inside'⟩

theorem entry (relisted : Relisted (.folder entries) (.folder entries')) (name : String) :
    Option.Rel Relisted ( entry? entries name) ( entry? entries' name) := by
  cases found : entry? entries name with
  | none =>
    have none' : entry? entries' name = none := by
      rw [entry?_eq_none_iff] at found ⊢
      cases relisted with
      | folder distinct names inner => exact mt names.mem_iff.mpr found
    rw [none']
    exact .none
  | some t =>
    obtain ⟨t', inside', same⟩ := relisted.listed ((entry?_eq_some_iff relisted.distinct).mp found)
    rw [(entry?_eq_some_iff relisted.symm.distinct).mpr inside']
    exact .some same

/-- The same path leads to the same place. -/
theorem walk {names : List String} {above above' : List FileTree}
    (outer : List.Forall₂ Relisted above above') (relisted : Relisted t t') :
    Option.Rel Relisted (walk? above t names) (walk? above' t' names) := by
  induction names generalizing above above' t t' with
  | nil =>
    unfold walk?
    exact .some relisted
  | cons name rest ih =>
    cases relisted with
    | file content => exact .none
    | @folder entries entries' distinct names inner =>
      have here : Relisted (.folder entries) (.folder entries') := .folder distinct names inner
      unfold walk?
      split
      · exact ih outer here
      · split
        · cases outer with
          | nil => exact .none
          | cons parent outer => exact ih outer parent
        · have next := here.entry name
          generalize entry? entries name = there, entry? entries' name = there' at next ⊢
          cases next with
          | none => exact .none
          | some next => exact ih (.cons here outer) next

end Relisted

end FileTree

/-- The same disk, but for the order in which folders are listed. -/
structure Disk.Relisted (d d' : Disk) : Prop where
  mount : d.mount = d'.mount
  tree : d.tree.Relisted d'.tree

theorem Disk.Relisted.find? {d d' : Disk} (relisted : d.Relisted d') (path : String) :
    Option.Rel FileTree.Relisted (d.find? path) (d'.find? path) := by
  unfold Disk.find?
  rw [relisted.mount]
  split
  · exact relisted.tree.walk .nil
  · exact .none

/-! ### Sorted names -/

namespace CompiledPackage

variable {names names' : List String}

theorem sortNames_eq (names : List String) : sortNames names = names.insertionSort (· < ·) :=
  foldr_eq_insertionSort insertName (fun _ => rfl) (fun _ _ _ => rfl) names

theorem sortNames_perm (names : List String) : (sortNames names).Perm names := by
  rw [sortNames_eq]
  exact List.perm_insertionSort _ names

theorem sortNames_sorted (names : List String) : (sortNames names).Pairwise (· ≤ ·) := by
  rw [sortNames_eq]
  exact pairwise_insertionSort (· ≤ ·) (fun _ _ before => String.not_lt.mp (String.lt_asymm before))
    (fun _ _ => String.not_lt.mp) (fun _ _ _ => String.le_trans) names

theorem sortNames_eq_of_perm (perm : names.Perm names') : sortNames names = sortNames names' :=
  ((sortNames_perm names).trans (perm.trans (sortNames_perm names').symm)).eq_of_pairwise
    (fun _ _ _ _ => String.le_antisymm) (sortNames_sorted names) (sortNames_sorted names')

theorem sortNames_ascending (distinct : names.Nodup) :
    (sortNames names).Pairwise fun a b => textBytes a < textBytes b := by
  have distinct' : (sortNames names).Nodup := (sortNames_perm names).nodup_iff.mpr distinct
  refine ((sortNames_sorted names).and distinct').imp fun ⟨le, ne⟩ => textBytes_lt_iff.mpr ?_
  by_contra notLess
  exact ne (String.le_antisymm le (String.not_lt.mp notLess))

/-- A module's file is named with something in front of `.mv`. -/
theorem isModuleFile_iff {file : String} :
    isModuleFile file = true ↔ ∃ stem, stem ≠ "" ∧ file = stem ++ ".mv" := by
  rw [isModuleFile, Bool.and_eq_true, decide_eq_true_iff, String.endsWith_eq_endsWith_toSlice,
    String.Slice.endsWith_string_iff, String.copy_toSlice]
  constructor
  · rintro ⟨⟨stem, ends⟩, long⟩
    have same : file = String.ofList stem ++ ".mv" := by
      rw [← String.toList_inj, String.toList_append, String.toList_ofList, ends]
    refine ⟨String.ofList stem, ?_, same⟩
    intro empty
    rw [same, empty] at long
    exact absurd long (by decide)
  · rintro ⟨stem, filled, rfl⟩
    refine ⟨⟨stem.toList, (String.toList_append).symm⟩, ?_⟩
    rw [String.length_append]
    have : stem.length ≠ 0 := mt String.length_eq_zero_iff.mp filled
    exact Nat.lt_add_of_pos_left (Nat.pos_of_ne_zero this)

end CompiledPackage

end MoveTx
