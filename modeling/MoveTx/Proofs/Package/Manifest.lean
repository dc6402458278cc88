import MoveTx.Package.Manifest
import MoveTx.Proofs.ByteOrder
import MoveTx.Proofs.Step

/-!
# The dependencies of a package

The dependencies that a manifest gives are the addresses of all aliases but the package's own, each of
them once and in ascending order.
-/

namespace MoveTx
open Step

namespace BuildManifest

variable {m : BuildManifest}

theorem parseAddress_ok_iff {name hex : String} {a : Address} :
    parseAddress name hex = .ok a ↔ Address.parse hex = .ok a := by
  unfold parseAddress
  cases Address.parse hex <;> simp

theorem mem_collected {addresses set : List Address} {a : Address} :
    a ∈ addresses.foldl (fun set a => Address.insert a set) set ↔ a ∈ set ∨ a ∈ addresses := by
  induction addresses generalizing set with
  | nil => simp
  | cons b rest ih =>
    rw [List.foldl_cons, ih, Address.mem_insert, List.mem_cons, or_assoc, or_left_comm]

theorem collected_ascending {addresses set : List Address} (ascending : set.Pairwise (·.before ·)) :
    (addresses.foldl (fun set a => Address.insert a set) set).Pairwise (·.before ·) := by
  induction addresses generalizing set with
  | nil => exact ascending
  | cons b rest ih => exact ih (Address.insert_ascending ascending)

/-- Each address of another alias than the package's own is there once, and no other address is. -/
structure DependsOn (m : BuildManifest) (dependencies : List Address) : Prop where
  ascending : dependencies.Pairwise fun a b => a.bytes < b.bytes
  complete : ∀ name hex, (name, hex) ∈ m.aliases → name ≠ m.ownAlias →
    ∃ a ∈ dependencies, Address.parse hex = .ok a
  exact : ∀ a ∈ dependencies, ∃ name hex, (name, hex) ∈ m.aliases ∧ name ≠ m.ownAlias ∧
    Address.parse hex = .ok a

theorem dependencies_eq (m : BuildManifest) :
    m.dependencies = ((m.aliases.filter fun pair => pair.1 ≠ m.ownAlias).mapM fun pair =>
      parseAddress pair.1 pair.2) >>= fun addresses =>
        .ok (addresses.foldl (fun set a => Address.insert a set) []) :=
  rfl

theorem dependencies_ok {dependencies : List Address} (read : m.dependencies = .ok dependencies) :
    m.DependsOn dependencies := by
  rw [dependencies_eq] at read
  obtain ⟨addresses, parsed, collected⟩ := except_bind_ok_iff.mp read
  obtain rfl := Except.ok.inj collected
  obtain ⟨pairs, others, rfl, each⟩ := mapM_ok_pairs parsed
  have mem {a : Address} : a ∈ (pairs.map (·.2)).foldl (fun set a => Address.insert a set) [] ↔
      a ∈ pairs.map (·.2) := by
    simp [mem_collected]
  refine ⟨(collected_ascending .nil).imp Address.before_iff.mp, fun name hex listed other => ?_,
    fun a inside => ?_⟩
  · have member : (name, hex) ∈ pairs.map (·.1) :=
      others ▸ List.mem_filter.mpr ⟨listed, decide_eq_true other⟩
    obtain ⟨⟨_, a⟩, paired, rfl⟩ := List.mem_map.mp member
    have parsed : parseAddress name hex = .ok a := each ((name, hex), a) paired
    exact ⟨a, mem.mpr (List.mem_map_of_mem paired), parseAddress_ok_iff.mp parsed⟩
  · obtain ⟨⟨⟨name, hex⟩, a⟩, paired, rfl⟩ := List.mem_map.mp (mem.mp inside)
    have parsed : parseAddress name hex = .ok a := each ((name, hex), a) paired
    have member : (name, hex) ∈ pairs.map (·.1) := List.mem_map_of_mem paired
    rw [← others] at member
    obtain ⟨listed, other⟩ := List.mem_filter.mp member
    exact ⟨name, hex, listed, of_decide_eq_true other, parseAddress_ok_iff.mp parsed⟩

theorem DependsOn.unique {dependencies others : List Address} (first : m.DependsOn dependencies)
    (second : m.DependsOn others) : dependencies = others := by
  have within {these those : List Address} (given : m.DependsOn these) (all : m.DependsOn those) :
      ∀ a ∈ these, a ∈ those := by
    intro a inside
    obtain ⟨name, hex, listed, other, parsed⟩ := given.exact a inside
    obtain ⟨b, there, same⟩ := all.complete name hex listed other
    exact Except.ok.inj (parsed.symm.trans same) ▸ there
  exact ascending_ext first.ascending second.ascending
    fun a => ⟨within first second a, within second first a⟩

theorem dependencies_ok_iff {dependencies : List Address} :
    m.dependencies = .ok dependencies ↔ m.DependsOn dependencies := by
  refine ⟨dependencies_ok, fun depends => ?_⟩
  have each : ∀ pair ∈ m.aliases.filter fun pair => pair.1 ≠ m.ownAlias,
      ∃ a, parseAddress pair.1 pair.2 = .ok a := by
    rintro ⟨name, hex⟩ member
    obtain ⟨listed, other⟩ := List.mem_filter.mp member
    obtain ⟨a, -, parsed⟩ := depends.complete name hex listed (of_decide_eq_true other)
    exact ⟨a, parseAddress_ok_iff.mpr parsed⟩
  obtain ⟨addresses, parsed⟩ := exists_mapM_ok each
  have done : m.dependencies = .ok (addresses.foldl (fun set a => Address.insert a set) []) := by
    rw [dependencies_eq, parsed]
    rfl
  rw [done, (dependencies_ok done).unique depends]

end BuildManifest

end MoveTx
