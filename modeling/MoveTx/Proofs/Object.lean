import MoveTx.Identifier
import MoveTx.Object
import MoveTx.Proofs.Codec.Lawful

/-!
# Binary form of addresses, names and object references

A digest is read only behind the count 32, and a name only when it is an identifier.
-/

namespace MoveTx
open Step

instance : Readable Address where
  readable _ := True

instance : LawfulCodec Address :=
  .of_total (fun _ => trivial) fun bs a rest => by
    constructor
    · intro h
      obtain ⟨raw, read, rfl⟩ := map_ok_iff.mp h
      exact Reader.fixed_ok_iff.mp read
    · intro written
      exact map_ok_iff.mpr ⟨a.raw, Reader.fixed_ok_iff.mpr written, rfl⟩

instance : Readable Digest where
  readable _ := True

instance : LawfulCodec Digest :=
  .of_total (fun _ => trivial) fun bs d rest => by
    have counted : (encode d : Bytes) = Codec.uleb 32 ++ d.bytes := by
      change Codec.uleb d.raw.toBytes.length ++ d.bytes = _
      rw [d.raw.length_eq]
    rw [counted, List.append_assoc]
    constructor
    · intro h
      obtain ⟨n, u, count, read⟩ := bind_ok_iff.mp h
      obtain ⟨_, rfl⟩ := Reader.length_ok_iff.mp count
      by_cases sized : n = 32
      · rw [if_pos sized] at read
        obtain ⟨raw, taken, rfl⟩ := map_ok_iff.mp read
        obtain rfl := Reader.fixed_ok_iff.mp taken
        rw [sized]
        rfl
      · rw [if_neg sized] at read
        exact (throw_ok_iff.mp read).elim
    · rintro rfl
      refine bind_ok_iff.mpr ⟨32, _, Reader.length_ok_iff.mpr ⟨by decide, rfl⟩, ?_⟩
      exact map_ok_iff.mpr ⟨d.raw, Reader.fixed_ok_iff.mpr rfl, rfl⟩

instance : Readable Identifier where
  readable i := readable i.name

instance : LawfulCodec Identifier where
  decode_iff bs i rest := by
    constructor
    · intro h
      obtain ⟨s, u, text, name⟩ := bind_ok_iff.mp h
      by_cases valid : Identifier.isValid s = true
      · rw [Identifier.ofString?, dif_pos valid] at name
        obtain ⟨rfl, rfl⟩ := pure_ok_iff.mp name
        exact Reader.string_ok_iff.mp text
      · rw [Identifier.ofString?, dif_neg valid] at name
        exact (throw_ok_iff.mp name).elim
    · intro written
      refine bind_ok_iff.mpr ⟨i.name, rest, Reader.string_ok_iff.mpr written, ?_⟩
      rw [Identifier.ofString?, dif_pos i.valid]
      rfl

/-- Names are told apart also where they are too long to be read. -/
theorem Identifier.encode_append_inj {i j : Identifier} {u v : Bytes}
    (same : encode i ++ u = encode j ++ v) : i = j ∧ u = v := by
  obtain ⟨names, rest⟩ := Reader.bytes_append_inj same
  have name : some i.name = some j.name := by
    rw [← textOfBytes_iff.mpr rfl, ← textOfBytes_iff.mpr rfl, names]
  obtain ⟨name', valid⟩ := i
  obtain ⟨name'', valid'⟩ := j
  obtain rfl := Option.some.inj name
  exact ⟨rfl, rest⟩

instance : Readable ObjectRef where
  readable _ := True

instance : LawfulCodec ObjectRef :=
  .of_total (fun _ => trivial) fun bs r rest => by
    have written : encode r ++ rest =
        encode r.id ++ (encode r.version ++ (encode r.digest ++ rest)) := append_three _ _ _ _
    rw [written]
    refine decode_bind_iff.trans ?_
    simp only [decode_bind_iff, pure_ok_iff]
    constructor
    · rintro ⟨id, _, -, rfl, version, _, -, rfl, digest, _, -, rfl, rfl, rfl⟩
      rfl
    · rintro rfl
      exact ⟨r.id, _, trivial, rfl, r.version, _, trivial, rfl, r.digest, _, trivial, rfl, rfl, rfl⟩

instance : Readable SharedRef where
  readable _ := True

instance : LawfulCodec SharedRef :=
  .of_total (fun _ => trivial) fun bs s rest => by
    have written : encode s ++ rest =
        encode s.id ++ (encode s.initialVersion ++ (encode s.isMutable ++ rest)) :=
      append_three _ _ _ _
    rw [written]
    refine decode_bind_iff.trans ?_
    simp only [decode_bind_iff, pure_ok_iff]
    constructor
    · rintro ⟨id, _, -, rfl, version, _, -, rfl, isMutable, _, -, rfl, rfl, rfl⟩
      rfl
    · rintro rfl
      exact ⟨s.id, _, trivial, rfl, s.initialVersion, _, trivial, rfl, s.isMutable, _, trivial, rfl,
        rfl, rfl⟩

instance : Readable ObjectArg where
  readable _ := True

instance : LawfulCodec ObjectArg :=
  .of_total (fun _ => trivial) fun bs arg rest => by
    refine Reader.variant_bind_iff.trans ?_
    constructor
    · rintro ⟨tag, u, -, rfl, h⟩
      split at h
      · obtain ⟨r, -, rfl, rfl⟩ := decode_map_iff.mp h
        exact (List.append_assoc _ _ _).symm
      · obtain ⟨s, -, rfl, rfl⟩ := decode_map_iff.mp h
        exact (List.append_assoc _ _ _).symm
      · obtain ⟨r, -, rfl, rfl⟩ := decode_map_iff.mp h
        exact (List.append_assoc _ _ _).symm
      · exact (throw_ok_iff.mp h).elim
    · rintro rfl
      cases arg with
      | owned r =>
        refine ⟨0, _, by decide, List.append_assoc _ _ _, ?_⟩
        exact decode_map_iff.mpr ⟨r, trivial, rfl, rfl⟩
      | shared s =>
        refine ⟨1, _, by decide, List.append_assoc _ _ _, ?_⟩
        exact decode_map_iff.mpr ⟨s, trivial, rfl, rfl⟩
      | receiving r =>
        refine ⟨2, _, by decide, List.append_assoc _ _ _, ?_⟩
        exact decode_map_iff.mpr ⟨r, trivial, rfl, rfl⟩

end MoveTx
