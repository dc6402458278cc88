import MoveTx.Proofs.TypeTag.Recognition

/-!
# Reading types back from their text

The text of a type is spelled by tokens that denote this type and no other. So it is read as that type,
unless the type is nested too deep, and then it is not read at all.
-/

namespace MoveTx.TypeTag

theorem chars_vector (t : TypeTag) (rest : List Char) :
    chars (.vector t) ++ rest = "vector".toList ++ '<' :: (t.chars ++ '>' :: rest) := by
  change ("vector<".toList ++ t.chars ++ ['>']) ++ rest = _
  simp only [List.append_assoc]
  rfl

/-- The parameters of a struct with their brackets, if there are any. -/
def parameterChars : List TypeTag → List Char
  | [] => []
  | t :: ts => '<' :: (t.chars ++ (laterChars ts ++ ['>']))

theorem chars_struct (a : Address) (m n : Identifier) (ts : List TypeTag) (rest : List Char) :
    chars (.struct a m n ts) ++ rest =
      a.text.toList ++ ("::".toList ++ (m.name.toList ++ ("::".toList ++ (n.name.toList ++
        (parameterChars ts ++ rest))))) := by
  have unfolded : chars (.struct a m n ts) =
      a.text.toList ++ "::".toList ++ m.name.toList ++ "::".toList ++ n.name.toList ++
        parameterChars ts := by
    cases ts with
    | nil => rfl
    | cons t ts =>
      rw [parameterChars, ← List.append_assoc t.chars]
      rfl
  rw [unfolded]
  simp only [List.append_assoc]

theorem parameterChars_cons (t : TypeTag) (ts : List TypeTag) (rest : List Char) :
    parameterChars (t :: ts) ++ rest = '<' :: (t.chars ++ (laterChars ts ++ '>' :: rest)) := by
  rw [parameterChars, List.cons_append, List.append_assoc, List.append_assoc]
  rfl

theorem laterChars_cons (t : TypeTag) (ts : List TypeTag) (rest : List Char) :
    laterChars (t :: ts) ++ rest = ',' :: ' ' :: (t.chars ++ (laterChars ts ++ rest)) := by
  change (", ".toList ++ t.chars ++ laterChars ts) ++ rest = _
  simp only [List.append_assoc]
  rfl

/-! ### Spelling -/

section

variable {tokens : List Token} {rest : List Char}

theorem Spells.word {w : List Char} (isWord : IsWord w) (stops : StopsWord rest)
    (later : Spells tokens rest) : Spells (.word w :: tokens) (w ++ rest) :=
  spells_cons_iff.mpr ⟨rest, trimStart_word isWord rest, ⟨isWord, stops⟩, later⟩

theorem Spells.mark (m : Mark) (later : Spells tokens rest) :
    Spells (.mark m :: tokens) (m.text.toList ++ rest) := by
  have ends : (Token.mark m).EndsAt rest := trivial
  exact spells_cons_iff.mpr ⟨rest, ends.trimStart_chars, ends, later⟩

end

/-- The text of the type is spelled by tokens that denote it, whatever comes behind that ends a word. -/
def IsSpelled (t : TypeTag) : Prop :=
  ∃ tokens, Derives tokens t ∧ ∀ later rest, StopsWord rest → Spells later rest →
    Spells (tokens ++ later) (t.chars ++ rest)

theorem exists_listed {t : TypeTag} {ts : List TypeTag} (each : ∀ s ∈ t :: ts, IsSpelled s) :
    ∃ tokens, Listed Derives tokens (t :: ts) ∧ ∀ later rest, Spells later rest →
      Spells (tokens ++ later) (t.chars ++ (laterChars ts ++ '>' :: rest)) := by
  induction ts generalizing t with
  | nil =>
    obtain ⟨tokens, derived, spelled⟩ := each t List.mem_cons_self
    refine ⟨_, .last derived, fun later rest behind => ?_⟩
    have closed := spelled _ _ (stopsWord_cons (by decide) rest) (behind.mark .closes)
    rwa [List.append_assoc]
  | cons s ts ih =>
    obtain ⟨here, there⟩ := List.forall_mem_cons.mp each
    obtain ⟨tokens, derived, spelled⟩ := here
    obtain ⟨others, listed, spelled'⟩ := ih there
    refine ⟨_, .more derived listed, fun later rest behind => ?_⟩
    have trimmed := spells_trimStart_iff.mpr (spelled' later rest behind)
    have spaced : Spells (others ++ later) (' ' :: (s.chars ++ (laterChars ts ++ '>' :: rest))) :=
      spells_trimStart_iff.mp trimmed
    rw [laterChars_cons, List.append_assoc]
    exact spelled _ _ (stopsWord_cons (by decide) _) (spaced.mark .comma)

theorem isSpelled_of_depth_lt {levels : Nat} {t : TypeTag} (shallow : t.depth < levels) : IsSpelled t := by
  induction levels generalizing t with
  | zero => exact absurd shallow (Nat.not_lt_zero _)
  | succ levels ih =>
    cases t with
    | primitive p =>
      exact ⟨_, .primitive p, fun later rest stops behind => behind.word (isWord_primitive p) stops⟩
    | vector t =>
      obtain ⟨tokens, derived, spelled⟩ := ih (Nat.lt_of_succ_lt_succ shallow)
      refine ⟨_, .vector derived, fun later rest stops behind => ?_⟩
      have closed := spelled _ _ (stopsWord_cons (by decide) rest) (behind.mark .closes)
      have opened := (closed.mark .opens).word isWord_vector (stopsWord_cons (by decide) _)
      rw [chars_vector, List.cons_append, List.cons_append, List.append_assoc]
      exact opened
    | struct a m n ts =>
      have each := depthList_le_iff.mp (Nat.le_of_lt_succ shallow)
      have named {tokens : List Token} {rest : List Char} (stops : StopsWord rest)
          (behind : Spells tokens rest) :=
        have name := (behind.word (isWord_identifier n) stops).mark .colons
        have module := (name.word (isWord_identifier m) (stopsWord_cons (by decide) _)).mark .colons
        module.word (isWord_address a) (stopsWord_cons (by decide) _)
      cases ts with
      | nil =>
        refine ⟨_, .struct a.isNumeral_text, fun later rest stops behind => ?_⟩
        rw [chars_struct]
        exact named stops behind
      | cons t ts =>
        obtain ⟨tokens, listed, spelled⟩ := exists_listed fun s inside => ih (each s inside)
        refine ⟨_, .generic a.isNumeral_text listed, fun later rest stops behind => ?_⟩
        have opened := named (stopsWord_cons (by decide) _) ((spelled later rest behind).mark .opens)
        rw [chars_struct, parameterChars_cons]
        exact opened

theorem exists_spells (t : TypeTag) : ∃ tokens, Spells tokens t.text.toList ∧ Derives tokens t := by
  obtain ⟨tokens, derived, spelled⟩ := isSpelled_of_depth_lt t.depth.lt_succ_self
  have whole := spelled [] [] stopsWord_nil (spells_nil_iff.mpr rfl)
  rw [List.append_nil, List.append_nil] at whole
  exact ⟨tokens, by rwa [text, String.toList_ofList], derived⟩

/-! ### Reading -/

/-- Tokens denote no more than one type, since with enough levels the parser reads either. -/
theorem Derives.unique {tokens : List Token} {cs : List Char} {t u : TypeTag} (spelled : Spells tokens cs)
    (derived : Derives tokens t) (derived' : Derives tokens u) : t = u := by
  have accepts := Parser.accepts_typeWithin (max t.depth u.depth + 1)
  have whole : Spells (tokens ++ []) cs := by rwa [List.append_nil]
  have read := (accepts cs t [] nofun).mpr ⟨tokens, ⟨derived, by omega⟩, whole⟩
  have read' := (accepts cs u [] nofun).mpr ⟨tokens, ⟨derived', by omega⟩, whole⟩
  obtain ⟨left, run, -⟩ := read
  obtain ⟨left', run', -⟩ := read'
  cases run.symm.trans run'
  rfl

theorem parse_text {t : TypeTag} (shallow : t.depth ≤ maxDepth) : parse t.text = .ok t := by
  obtain ⟨tokens, spelled, derived⟩ := exists_spells t
  exact parse_ok_iff_spells.mpr ⟨tokens, spelled, derived, shallow⟩

theorem parse_text_error {t : TypeTag} (deep : maxDepth < t.depth) : ∃ e, parse t.text = .error e := by
  cases read : parse t.text with
  | error e => exact ⟨e, rfl⟩
  | ok u =>
    obtain ⟨tokens, spelled, derived⟩ := exists_spells t
    obtain ⟨tokens', spelled', derived', shallow⟩ := parse_ok_iff_spells.mp read
    obtain rfl := spelled.eq spelled'
    obtain rfl := derived.unique spelled derived'
    exact absurd shallow (Nat.not_le_of_lt deep)

end MoveTx.TypeTag
