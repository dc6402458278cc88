import MoveTx.Proofs.TypeTag.Grammar

/-!
# The texts of types

The parser reads exactly the types of the grammar. Each of its steps accepts a language of tokens, and the
language of a sequence of steps is that of the one followed by that of the other.
-/

namespace MoveTx.TypeTag.Parser
open Step

/-- The parser takes a value off the front of a text, leaving what the later tokens spell, exactly when the
text is spelled by tokens of the language and then the later ones. These have to be such that they do not
go on with the value. -/
def Accepts {α : Type} (p : Parser α) (language : List Token → α → Prop)
    (follows : List Token → Prop) : Prop :=
  ∀ cs a later, follows later →
    ((∃ left, p cs = .ok a left ∧ Spells later left) ↔
      ∃ tokens, language tokens a ∧ Spells (tokens ++ later) cs)

/-- What may come after a type: nothing, a comma or a closing bracket. -/
def EndsType (later : List Token) : Prop :=
  ∀ token ∈ later.head?, token = .comma ∨ token = .closes

theorem EndsType.head?_ne {later : List Token} {m : Mark} (ends : EndsType later)
    (other : m ≠ .comma ∧ m ≠ .closes) : later.head? ≠ some (.mark m) := by
  intro next
  rcases ends _ next with same | same
  · exact other.1 (Token.mark.inj same)
  · exact other.2 (Token.mark.inj same)

section

variable {α β : Type} {p q : Parser α} {f : α → Parser β} {language language' : List Token → α → Prop}
  {follows follows' : List Token → Prop}

theorem Accepts.of_iff (accepts : Accepts p language follows)
    (same : ∀ tokens a, language tokens a ↔ language' tokens a) : Accepts p language' follows := by
  have equal : language = language' := funext₂ fun tokens a => propext (same tokens a)
  exact equal ▸ accepts

theorem Accepts.before (accepts : Accepts p language fun _ => True) (follows : List Token → Prop) :
    Accepts p language follows :=
  fun cs a later _ => accepts cs a later trivial

theorem accepts_pure (a : α) : Accepts (pure a) (fun tokens b => tokens = [] ∧ b = a) follows := by
  intro cs b later _
  simp only [pure_ok_iff]
  constructor
  · rintro ⟨_, ⟨rfl, rfl⟩, spelled⟩
    exact ⟨[], ⟨rfl, rfl⟩, spelled⟩
  · rintro ⟨_, ⟨rfl, rfl⟩, spelled⟩
    exact ⟨cs, ⟨rfl, rfl⟩, spelled⟩

theorem accepts_throw (e : TypeFault) (follows : List Token → Prop) :
    Accepts (throw e : Parser α) (fun _ _ => False) follows := by
  intro cs a later _
  simp [throw_ok_iff]

theorem Accepts.bind {next : α → List Token → β → Prop} (first : Accepts p language follows')
    (second : ∀ a, Accepts (f a) (next a) follows)
    (meets : ∀ a tokens b later, next a tokens b → follows later → follows' (tokens ++ later)) :
    Accepts (p >>= f)
      (fun tokens b => ∃ a front, language front a ∧ ∃ back, next a back b ∧ tokens = front ++ back)
      follows := by
  intro cs b later after
  simp only [bind_ok_iff]
  constructor
  · rintro ⟨left, ⟨a, mid, read, rest⟩, spelled⟩
    obtain ⟨back, derived', spelled⟩ := (second a _ _ _ after).mp ⟨left, rest, spelled⟩
    have meets := meets a back b later derived' after
    obtain ⟨front, derived, spelled⟩ := (first _ _ _ meets).mp ⟨mid, read, spelled⟩
    exact ⟨front ++ back, ⟨a, front, derived, back, derived', rfl⟩, by rwa [List.append_assoc]⟩
  · rintro ⟨_, ⟨a, front, derived, back, derived', rfl⟩, spelled⟩
    rw [List.append_assoc] at spelled
    have meets := meets a back b later derived' after
    obtain ⟨mid, read, spelled⟩ := (first _ _ _ meets).mpr ⟨front, derived, spelled⟩
    obtain ⟨left, rest, spelled⟩ := (second a _ _ _ after).mpr ⟨back, derived', spelled⟩
    exact ⟨left, ⟨a, mid, read, rest⟩, spelled⟩

theorem Accepts.cons {token : α → Token} {next : α → List Token → β → Prop}
    (first : Accepts p (fun tokens a => tokens = [token a]) fun _ => True)
    (second : ∀ a, Accepts (f a) (next a) follows) :
    Accepts (p >>= f) (fun tokens b => ∃ a rest, next a rest b ∧ tokens = token a :: rest) follows := by
  refine (first.bind second fun _ _ _ _ _ _ => trivial).of_iff fun tokens b => ?_
  simp only [exists_eq_left, List.singleton_append]

theorem Accepts.map (accepts : Accepts p language follows) (g : α → β) :
    Accepts (p >>= fun a => pure (g a)) (fun tokens b => ∃ a, language tokens a ∧ b = g a) follows := by
  have last (a : α) : Accepts (pure (g a)) (fun tokens b => tokens = [] ∧ b = g a) follows :=
    accepts_pure (g a)
  refine (accepts.bind last ?_).of_iff fun tokens b => ?_
  · rintro a _ b later ⟨rfl, -⟩ after
    exact after
  · constructor
    · rintro ⟨a, front, derived, _, ⟨rfl, rfl⟩, rfl⟩
      exact ⟨a, by rwa [List.append_nil], rfl⟩
    · rintro ⟨a, derived, rfl⟩
      exact ⟨a, tokens, derived, [], ⟨rfl, rfl⟩, (List.append_nil tokens).symm⟩

/-- Where a mark is looked for and left where it is, what begins with it is told from what does not. -/
theorem Accepts.peek {m : Mark} (here : Accepts p language follows) (there : Accepts q language' follows)
    (begins : ∀ tokens a, language tokens a → tokens.head? = some (.mark m))
    (differs : ∀ tokens a later, language' tokens a → follows later →
      (tokens ++ later).head? ≠ some (.mark m)) :
    Accepts (do skipBlanks; let cs ← get; if m.text.toList.isPrefixOf cs then p else q)
      (fun tokens a => language tokens a ∨ language' tokens a) follows := by
  intro cs a later after
  have run : (do skipBlanks; let cs ← get; if m.text.toList.isPrefixOf cs then p else q : Parser α) cs =
      if m.text.toList <+: Text.trimStart cs then p (Text.trimStart cs) else q (Text.trimStart cs) := by
    rw [bind_of_ok (skipBlanks_next rfl), get_bind]
    simp only [List.isPrefixOf_iff_prefix]
    split <;> rfl
  rw [run]
  split
  · rename_i next
    simp only [here _ _ _ after, spells_trimStart_iff]
    constructor
    · rintro ⟨tokens, derived, spelled⟩
      exact ⟨tokens, Or.inl derived, spelled⟩
    · rintro ⟨tokens, derived | derived, spelled⟩
      · exact ⟨tokens, derived, spelled⟩
      · exact absurd ((spelled.starts_iff m).mp next) (differs tokens a later derived after)
  · rename_i next
    simp only [there _ _ _ after, spells_trimStart_iff]
    constructor
    · rintro ⟨tokens, derived, spelled⟩
      exact ⟨tokens, Or.inr derived, spelled⟩
    · rintro ⟨tokens, derived | derived, spelled⟩
      · refine absurd ((spelled.starts_iff m).mpr ?_) next
        rw [List.head?_append, begins tokens a derived, Option.some_or]
      · exact ⟨tokens, derived, spelled⟩

/-- Where a mark is passed over, if it comes next, what begins with it is told from what does not. -/
theorem Accepts.branch {m : Mark} (here : Accepts p language follows) (there : Accepts q language' follows)
    (differs : ∀ tokens a later, language' tokens a → follows later →
      (tokens ++ later).head? ≠ some (.mark m)) :
    Accepts (do if ← eat m.text then p else q)
      (fun tokens a => (∃ rest, language rest a ∧ tokens = .mark m :: rest) ∨ language' tokens a)
      follows := by
  intro cs a later after
  by_cases next : m.text.toList <+: Text.trimStart cs
  · obtain ⟨rest, next⟩ := next
    rw [bind_of_ok (eat_next next.symm), if_pos rfl, here _ _ _ after]
    constructor
    · rintro ⟨tokens, derived, spelled⟩
      exact ⟨.mark m :: tokens, Or.inl ⟨tokens, derived, rfl⟩,
        spells_cons_iff.mpr ⟨rest, next.symm, trivial, spelled⟩⟩
    · rintro ⟨_, ⟨tokens, derived, rfl⟩ | derived, spelled⟩
      · obtain ⟨rest', next', -, spelled⟩ := spells_cons_iff.mp spelled
        obtain rfl := List.append_cancel_left (next.trans next')
        exact ⟨tokens, derived, spelled⟩
      · have first := (spelled.starts_iff m).mp ⟨rest, next⟩
        exact absurd first (differs _ a later derived after)
  · rw [bind_of_ok (eat_absent next), if_neg Bool.false_ne_true, there _ _ _ after]
    simp only [spells_trimStart_iff]
    constructor
    · rintro ⟨tokens, derived, spelled⟩
      exact ⟨tokens, Or.inr derived, spelled⟩
    · rintro ⟨_, ⟨tokens, derived, rfl⟩ | derived, spelled⟩
      · exact absurd ((spelled.starts_iff m).mpr rfl) next
      · exact ⟨_, derived, spelled⟩

end

/-! ### Tokens -/

theorem accepts_word : Accepts word (fun tokens w => tokens = [.word w]) fun _ => True := by
  intro cs w later _
  simp only [word_ok_iff]
  constructor
  · rintro ⟨left, ⟨next, ends⟩, spelled⟩
    exact ⟨_, rfl, spells_cons_iff.mpr ⟨left, next, ends, spelled⟩⟩
  · rintro ⟨_, rfl, spelled⟩
    obtain ⟨left, next, ends, spelled⟩ := spells_cons_iff.mp spelled
    exact ⟨left, ⟨next, ends⟩, spelled⟩

theorem accepts_expect (m : Mark) :
    Accepts (expect m.text) (fun tokens _ => tokens = [.mark m]) fun _ => True := by
  have refused : Accepts (throw (.expectedToken m.text) : Parser Unit) _ fun _ => True :=
    accepts_throw _ _
  refine ((accepts_pure ()).branch (m := m) refused nofun).of_iff fun tokens _ => ?_
  simp

theorem accepts_identifier :
    Accepts identifier (fun tokens i => tokens = [.word i.name.toList]) fun _ => True := by
  intro cs i later after
  simp only [identifier_ok_iff]
  exact accepts_word cs _ later after

/-! ### Types -/

/-- What comes after the address of a struct. -/
inductive Named (language : List Token → TypeTag → Prop) (a : Address) :
    (tokens : List Token) → (t : TypeTag) → Prop
  | struct {m n : Identifier} : Named language a
      [.colons, .word m.name.toList, .colons, .word n.name.toList] (.struct a m n [])
  | generic {m n : Identifier} {tokens : List Token} {ts : List TypeTag}
      (parameters : Listed language tokens ts) : Named language a
        (.colons :: .word m.name.toList :: .colons :: .word n.name.toList :: .opens :: tokens)
        (.struct a m n ts)

theorem accepts_primitive (w : List Char) :
    Accepts
      (match PrimitiveType.ofName? (String.ofList w) with
        | some p => pure (TypeTag.primitive p)
        | none => throw .unknownType)
      (fun tokens t => ∃ p : PrimitiveType, w = p.name.toList ∧ tokens = [] ∧ t = TypeTag.primitive p)
      EndsType := by
  have named {p : PrimitiveType} :
      PrimitiveType.ofName? (String.ofList w) = some p ↔ w = p.name.toList := by
    rw [PrimitiveType.ofName?_eq_some_iff, ← String.toList_inj, String.toList_ofList]
  cases known : PrimitiveType.ofName? (String.ofList w) with
  | some p =>
    refine (accepts_pure (TypeTag.primitive p)).of_iff fun tokens t => ?_
    simp only [← named, known, Option.some.injEq, exists_eq_left']
  | none =>
    refine (accepts_throw _ _).of_iff fun tokens t => ?_
    simp [← named, known]

section

variable {type : Parser TypeTag} {language : List Token → TypeTag → Prop}
  (accepts : Accepts type language EndsType)

include accepts

theorem accepts_parameters (count : Nat) :
    Accepts (parameters type count) (fun tokens ts => Listed language tokens ts ∧ ts.length ≤ count)
      fun _ => True := by
  induction count with
  | zero =>
    refine (accepts_throw _ _).of_iff fun tokens ts => ?_
    refine iff_of_false not_false ?_
    rintro ⟨listed, few⟩
    cases listed <;> cases few
  | succ count ih =>
    rw [parameters]
    have separated (t : TypeTag) := (ih.map (t :: ·)).branch (m := .comma)
      ((accepts_expect .closes).map fun _ => [t]) (by rintro _ _ _ ⟨_, rfl, -⟩ _; simp)
    refine (accepts.bind separated ?_).of_iff fun tokens ts => ?_
    · rintro t tokens b later (⟨rest, -, rfl⟩ | ⟨_, rfl, -⟩) _ token first
      · exact Or.inl (Option.some.inj first).symm
      · exact Or.inr (Option.some.inj first).symm
    · constructor
      · rintro ⟨t, front, derived, back, ⟨rest, ⟨others, ⟨listed, few⟩, rfl⟩, rfl⟩ | ⟨_, rfl, rfl⟩, rfl⟩
        · exact ⟨.more derived listed, Nat.succ_le_succ few⟩
        · exact ⟨.last derived, Nat.succ_le_succ (Nat.zero_le _)⟩
      · rintro ⟨listed, few⟩
        cases listed with
        | last only => exact ⟨_, _, only, _, Or.inr ⟨(), rfl, rfl⟩, rfl⟩
        | more first others =>
          exact ⟨_, _, first, _, Or.inl ⟨_, ⟨_, ⟨others, Nat.le_of_succ_le_succ few⟩, rfl⟩, rfl⟩, rfl⟩

/-- The count that is given cannot run out, since a text has at least as many characters as tokens. -/
theorem accepts_listed :
    Accepts (do let cs ← get; parameters type (cs.length + 1)) (Listed language) fun _ => True := by
  intro cs ts later after
  rw [get_bind, accepts_parameters accepts _ _ _ _ after]
  constructor
  · rintro ⟨tokens, ⟨listed, -⟩, spelled⟩
    exact ⟨tokens, listed, spelled⟩
  · rintro ⟨tokens, listed, spelled⟩
    have few := listed.length_le
    have bound := spelled.length_le
    rw [List.length_append] at bound
    exact ⟨tokens, ⟨listed, by omega⟩, spelled⟩

theorem accepts_struct (a : Address) : Accepts (struct type a) (Named language a) EndsType := by
  have generic (m n : Identifier) :=
    ((accepts_listed accepts).map fun ts => TypeTag.struct a m n ts).before EndsType
  have either (m n : Identifier) := (generic m n).branch (m := .opens)
    (accepts_pure (TypeTag.struct a m n [])) (by
      rintro _ _ _ ⟨rfl, -⟩ ends
      exact ends.head?_ne (by decide))
  refine ((accepts_expect .colons).cons fun _ => accepts_identifier.cons fun m =>
    (accepts_expect .colons).cons fun _ => accepts_identifier.cons (either m)).of_iff fun tokens t => ?_
  constructor
  · rintro ⟨_, _, ⟨m, _, ⟨_, _, ⟨n, _, rest, rfl⟩, rfl⟩, rfl⟩, rfl⟩
    rcases rest with ⟨tokens, ⟨ts, listed, rfl⟩, rfl⟩ | ⟨rfl, rfl⟩
    · exact .generic listed
    · exact .struct
  · rintro (_ | listed)
    · exact ⟨(), _, ⟨_, _, ⟨(), _, ⟨_, _, Or.inr ⟨rfl, rfl⟩, rfl⟩, rfl⟩, rfl⟩, rfl⟩
    · exact ⟨(), _, ⟨_, _, ⟨(), _, ⟨_, _, Or.inl ⟨_, ⟨_, listed, rfl⟩, rfl⟩, rfl⟩, rfl⟩, rfl⟩, rfl⟩

theorem accepts_address (w : List Char) :
    Accepts
      (match Address.parse (String.ofList w) with
        | .ok address => struct type address
        | .error _ => throw .invalidAddress)
      (fun tokens t => ∃ a : Address, a.IsNumeral w ∧ Named language a tokens t) EndsType := by
  have numeral {a : Address} : Address.parse (String.ofList w) = .ok a ↔ a.IsNumeral w := by
    rw [Address.parse_eq_ok_iff, String.toList_ofList]
  cases parsed : Address.parse (String.ofList w) with
  | ok a =>
    refine (accepts_struct accepts a).of_iff fun tokens t => ?_
    simp only [← numeral, parsed, Except.ok.injEq, exists_eq_left']
  | error e =>
    refine (accepts_throw _ _).of_iff fun tokens t => ?_
    simp [← numeral, parsed]

theorem accepts_vector :
    Accepts (do expect "<"; let t ← type; expect ">"; return TypeTag.vector t)
      (fun tokens t => ∃ inner element, language inner element ∧
        tokens = .opens :: (inner ++ [.closes]) ∧ t = TypeTag.vector element) EndsType := by
  have closed (t : TypeTag) := (accepts_expect .closes).map fun _ => TypeTag.vector t
  have element := accepts.bind (fun t => (closed t).before EndsType) (by
    rintro t _ _ later ⟨_, rfl, -⟩ _ token first
    exact Or.inr (Option.some.inj first).symm)
  refine ((accepts_expect .opens).cons fun _ => element).of_iff fun tokens t => ?_
  constructor
  · rintro ⟨_, _, ⟨element, inner, derived, _, ⟨_, rfl, rfl⟩, rfl⟩, rfl⟩
    exact ⟨inner, element, derived, rfl, rfl⟩
  · rintro ⟨inner, element, derived, rfl, rfl⟩
    exact ⟨(), _, ⟨element, inner, derived, _, ⟨(), rfl, rfl⟩, rfl⟩, rfl⟩

/-- What comes after a word that is no address. -/
theorem accepts_unaddressed (w : List Char) :
    Accepts
      (if w = "vector".toList then do
        expect "<"
        let t ← type
        expect ">"
        return TypeTag.vector t
      else
        match PrimitiveType.ofName? (String.ofList w) with
        | some p => pure (TypeTag.primitive p)
        | none => throw .unknownType)
      (fun tokens t =>
        (w = "vector".toList ∧ ∃ inner element, language inner element ∧
          tokens = .opens :: (inner ++ [.closes]) ∧ t = TypeTag.vector element) ∨
        ∃ p : PrimitiveType, w = p.name.toList ∧ tokens = [] ∧ t = TypeTag.primitive p) EndsType := by
  split
  · rename_i vector
    have other : ∀ p : PrimitiveType, "vector".toList ≠ p.name.toList := by
      intro p
      cases p <;> decide
    refine (accepts_vector accepts).of_iff fun tokens t => ?_
    rw [or_iff_left (by rintro ⟨p, same, -⟩; exact other p (vector ▸ same)), and_iff_right vector]
  · rename_i vector
    refine (accepts_primitive w).of_iff fun tokens t => ?_
    rw [or_iff_right fun both => vector both.1]

end

/-- With a number of levels left, the types of the grammar are read that are nested less deep. -/
theorem accepts_typeWithin (levels : Nat) :
    Accepts (typeWithin levels) (fun tokens t => Derives tokens t ∧ t.depth < levels) EndsType := by
  induction levels with
  | zero => exact (accepts_throw _ _).of_iff fun tokens t => by simp
  | succ levels ih =>
    rw [typeWithin]
    have rest (w : List Char) := (accepts_address ih w).peek (m := .colons) (accepts_unaddressed ih w)
      (by
        rintro tokens t ⟨a, -, named⟩
        cases named <;> rfl)
      (by
        rintro tokens t later (⟨-, inner, element, -, rfl, -⟩ | ⟨p, -, rfl, -⟩) ends
        · simp
        · exact ends.head?_ne (by decide))
    refine (accepts_word.cons rest).of_iff fun tokens t => ?_
    constructor
    · rintro ⟨w, tokens, ⟨a, numeral, named⟩ | ⟨rfl, inner, element, ⟨derived, shallow⟩, rfl, rfl⟩ |
        ⟨p, rfl, rfl, rfl⟩, rfl⟩
      · cases named with
        | struct => exact ⟨.struct numeral, Nat.succ_pos _⟩
        | generic parameters =>
          obtain ⟨listed, shallow⟩ := listed_and_iff.mp parameters
          exact ⟨.generic numeral listed, Nat.lt_succ_of_le (depthList_le_iff.mpr shallow)⟩
      · exact ⟨.vector derived, Nat.succ_lt_succ shallow⟩
      · exact ⟨.primitive p, Nat.succ_pos _⟩
    · rintro ⟨derived, shallow⟩
      cases derived with
      | primitive p => exact ⟨_, _, Or.inr (Or.inr ⟨p, rfl, rfl, rfl⟩), rfl⟩
      | vector element =>
        have inner := Nat.lt_of_succ_lt_succ shallow
        exact ⟨_, _, Or.inr (Or.inl ⟨rfl, _, _, ⟨element, inner⟩, rfl, rfl⟩), rfl⟩
      | struct address => exact ⟨_, _, Or.inl ⟨_, address, .struct⟩, rfl⟩
      | generic address parameters =>
        have inner := depthList_le_iff.mp (Nat.le_of_lt_succ shallow)
        exact ⟨_, _, Or.inl ⟨_, address, .generic (listed_and_iff.mpr ⟨parameters, inner⟩)⟩, rfl⟩

end MoveTx.TypeTag.Parser

namespace MoveTx.TypeTag
open Step

theorem whole_ok_iff {cs : List Char} {t : TypeTag} :
    (∃ left, Parser.whole cs = .ok t left) ↔
      ∃ left, Parser.typeWithin (maxDepth + 1) cs = .ok t left ∧ Text.trimStart left = [] := by
  unfold Parser.whole
  constructor
  · rintro ⟨left, read⟩
    obtain ⟨t, mid, first, read⟩ := bind_ok_iff.mp read
    rw [bind_of_ok (Parser.skipBlanks_next rfl), get_bind] at read
    cases ended : Text.trimStart mid with
    | nil =>
      rw [ended] at read
      obtain ⟨rfl, -⟩ := pure_ok_iff.mp read
      exact ⟨mid, first, ended⟩
    | cons c rest =>
      rw [ended] at read
      exact (throw_ok_iff.mp read).elim
  · rintro ⟨mid, first, ended⟩
    refine ⟨[], ?_⟩
    rw [bind_of_ok first, bind_of_ok (Parser.skipBlanks_next ended)]
    rfl

theorem parse_ok_iff_whole {s : String} {t : TypeTag} :
    parse s = .ok t ↔ ∃ left, Parser.whole s.toList = .ok t left := by
  unfold parse EStateM.run
  cases Parser.whole s.toList <;> simp

/-- The texts of a type are what tokens spell that denote it, unless it is nested too deep. -/
theorem parse_ok_iff_spells {s : String} {t : TypeTag} :
    parse s = .ok t ↔ ∃ tokens, Spells tokens s.toList ∧ Derives tokens t ∧ t.depth ≤ maxDepth := by
  have accepts := Parser.accepts_typeWithin (maxDepth + 1) s.toList t [] nofun
  simp only [List.append_nil, Nat.lt_succ_iff, spells_nil_iff] at accepts
  rw [parse_ok_iff_whole, whole_ok_iff, accepts]
  simp only [and_comm]

theorem depth_le_of_parse {s : String} {t : TypeTag} (read : parse s = .ok t) : t.depth ≤ maxDepth := by
  obtain ⟨tokens, -, -, shallow⟩ := parse_ok_iff_spells.mp read
  exact shallow

/-- A text is read as a type exactly when the grammar derives the tokens it is spelled by and they are not
nested too deep. In particular no brackets are empty, and no comma is in front of a closing bracket. -/
theorem parse_iff_derives (s : String) :
    (∀ t, parse s = .ok t ↔ ∃ tokens, Spells tokens s.toList ∧ Derives tokens t ∧ t.depth ≤ maxDepth) ∧
      ∀ tokens, Spells tokens s.toList →
        [Token.opens, .closes] <:+: tokens ∨ [Token.comma, .closes] <:+: tokens →
        ∃ e, parse s = .error e := by
  refine ⟨fun t => parse_ok_iff_spells, fun tokens spelled broken => ?_⟩
  cases read : parse s with
  | error e => exact ⟨e, rfl⟩
  | ok t =>
    obtain ⟨tokens', spelled', derived, -⟩ := parse_ok_iff_spells.mp read
    obtain rfl := spelled.eq spelled'
    rcases broken with inside | inside
    · cases derived.completes inside
    · cases derived.completes inside

/-- Blanks are allowed around any token, but not in place of a type. -/
theorem blankBrackets_refused :
    (∃ tokens, Spells tokens "\u3000vector < u8 >".toList ∧ Derives tokens (.vector .u8)) ∧
      ∃ e, parse "vector< >" = .error e := by
  obtain ⟨recognized, -⟩ := parse_iff_derives "\u3000vector < u8 >"
  obtain ⟨-, refused⟩ := parse_iff_derives "vector< >"
  obtain ⟨tokens, spelled, derived, -⟩ := (recognized (.vector .u8)).mp (by decide +kernel)
  have closes : Spells [.closes] " >".toList :=
    spells_cons_iff.mpr ⟨[], rfl, trivial, spells_nil_iff.mpr rfl⟩
  have brackets : Spells [.opens, .closes] "< >".toList :=
    spells_cons_iff.mpr ⟨" >".toList, rfl, trivial, closes⟩
  have stops : StopsWord "< >".toList := stopsWord_cons (by decide) [' ', '>']
  have text : Spells [.word "vector".toList, .opens, .closes] "vector< >".toList :=
    spells_cons_iff.mpr ⟨"< >".toList, rfl, ⟨isWord_vector, stops⟩, brackets⟩
  exact ⟨⟨tokens, spelled, derived⟩, refused _ text (Or.inl (List.suffix_cons _ _).isInfix)⟩

end MoveTx.TypeTag
