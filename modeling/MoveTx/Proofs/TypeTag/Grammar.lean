import Mathlib.Data.List.Chain
import Mathlib.Data.List.DropRight
import MoveTx.Proofs.TypeTag.Parser

/-!
# The grammar of types

A text is spelled by tokens, which are words and marks with white space anywhere around them. A word ends
where its run of letters, digits and underscores ends, so that no text is spelled in two ways.
`TypeTag.Derives` says which tokens a type is written in.
-/

namespace MoveTx.TypeTag

/-! ### Tokens -/

inductive Mark
  | colons
  | opens
  | closes
  | comma
  deriving DecidableEq

def Mark.text : Mark → String
  | colons => "::"
  | opens => "<"
  | closes => ">"
  | comma => ","

inductive Token
  | word (chars : List Char)
  | mark (mark : Mark)
  deriving DecidableEq

namespace Token

abbrev colons : Token := .mark .colons
abbrev opens : Token := .mark .opens
abbrev closes : Token := .mark .closes
abbrev comma : Token := .mark .comma

def chars : Token → List Char
  | word w => w
  | mark m => m.text.toList

/-- Whether the token ends where `rest` begins. -/
def EndsAt : (token : Token) → (rest : List Char) → Prop
  | word w, rest => IsWord w ∧ StopsWord rest
  | mark _, _ => True

end Token

/-- The characters are the tokens in turn, with white space before, between and after them. -/
inductive Spells : (tokens : List Token) → (cs : List Char) → Prop
  | nil {blanks : List Char} (blank : ∀ c ∈ blanks, Text.isBlank c = true) : Spells [] blanks
  | cons {blanks : List Char} {token : Token} {tokens : List Token} {rest : List Char}
      (blank : ∀ c ∈ blanks, Text.isBlank c = true) (ends : token.EndsAt rest)
      (later : Spells tokens rest) : Spells (token :: tokens) (blanks ++ (token.chars ++ rest))

/-! ### Types -/

/-- One or more types with commas between them, up to the closing bracket. -/
inductive Listed (derives : List Token → TypeTag → Prop) : (tokens : List Token) → (ts : List TypeTag) → Prop
  | last {tokens : List Token} {t : TypeTag} (only : derives tokens t) :
      Listed derives (tokens ++ [.closes]) [t]
  | more {tokens later : List Token} {t : TypeTag} {ts : List TypeTag} (first : derives tokens t)
      (others : Listed derives later ts) : Listed derives (tokens ++ .comma :: later) (t :: ts)

/-- The grammar derives the tokens, and they denote the type. -/
inductive Derives : (tokens : List Token) → (t : TypeTag) → Prop
  | primitive (p : PrimitiveType) : Derives [.word p.name.toList] (.primitive p)
  | vector {tokens : List Token} {t : TypeTag} (element : Derives tokens t) :
      Derives (.word "vector".toList :: .opens :: (tokens ++ [.closes])) (.vector t)
  | struct {w : List Char} {a : Address} {m n : Identifier} (address : a.IsNumeral w) :
      Derives [.word w, .colons, .word m.name.toList, .colons, .word n.name.toList] (.struct a m n [])
  | generic {w : List Char} {a : Address} {m n : Identifier} {tokens : List Token} {ts : List TypeTag}
      (address : a.IsNumeral w) (parameters : Listed Derives tokens ts) :
      Derives (.word w :: .colons :: .word m.name.toList :: .colons :: .word n.name.toList :: .opens ::
        tokens) (.struct a m n ts)

theorem listed_and_iff {derives : List Token → TypeTag → Prop} {p : TypeTag → Prop} {tokens : List Token}
    {ts : List TypeTag} :
    Listed (fun tokens t => derives tokens t ∧ p t) tokens ts ↔
      Listed derives tokens ts ∧ ∀ t ∈ ts, p t := by
  constructor
  · intro listed
    induction listed with
    | last only => exact ⟨.last only.1, List.forall_mem_singleton.mpr only.2⟩
    | more first _ ih => exact ⟨.more first.1 ih.1, List.forall_mem_cons.mpr ⟨first.2, ih.2⟩⟩
  · rintro ⟨listed, all⟩
    induction listed with
    | last only => exact .last ⟨only, List.forall_mem_singleton.mp all⟩
    | more first _ ih =>
      obtain ⟨here, there⟩ := List.forall_mem_cons.mp all
      exact .more ⟨first, here⟩ (ih there)

/-- A comma or a bracket follows each of the types. -/
theorem Listed.length_le {derives : List Token → TypeTag → Prop} {tokens : List Token}
    {ts : List TypeTag} (listed : Listed derives tokens ts) : ts.length ≤ tokens.length := by
  induction listed with
  | last => simp
  | more _ _ ih =>
    simp only [List.length_append, List.length_cons]
    omega

/-! ### Brackets and commas -/

/-- Whether a type may end with the token, so that a closing bracket may come next. -/
def Token.Completes : (token : Token) → Prop
  | word _ => True
  | mark m => m = .closes

/-- No closing bracket comes after anything but the end of a type. -/
structure Unbroken (tokens : List Token) : Prop where
  chain : tokens.IsChain fun token next => next = .closes → token.Completes
  first : ∃ w, tokens.head? = some (.word w)
  last : ∀ token ∈ tokens.getLast?, token.Completes

theorem Unbroken.append_closes {tokens : List Token} (unbroken : Unbroken tokens) :
    Unbroken (tokens ++ [.closes]) := by
  obtain ⟨w, first⟩ := unbroken.first
  refine ⟨List.isChain_append.mpr ⟨unbroken.chain, .singleton _, ?_⟩, ⟨w, ?_⟩, ?_⟩
  · intro token final _ _ _
    exact unbroken.last token final
  · rw [List.head?_append, first, Option.some_or]
  · simp [Token.Completes]

theorem Unbroken.append_mark {tokens later : List Token} {m : Mark} (other : m ≠ .closes)
    (unbroken : Unbroken tokens) (unbroken' : Unbroken later) :
    Unbroken (tokens ++ .mark m :: later) := by
  obtain ⟨w, first⟩ := unbroken.first
  obtain ⟨w', first'⟩ := unbroken'.first
  have rest : (Token.mark m :: later).IsChain fun token next => next = .closes → token.Completes := by
    refine List.isChain_cons.mpr ⟨?_, unbroken'.chain⟩
    intro token next closes
    rw [first', closes] at next
    cases next
  refine ⟨List.isChain_append.mpr ⟨unbroken.chain, rest, ?_⟩, ⟨w, ?_⟩, ?_⟩
  · intro _ _ token next closes
    rw [List.head?_cons, closes] at next
    exact absurd (Token.mark.inj (Option.some.inj next)) other
  · rw [List.head?_append, first, Option.some_or]
  · obtain ⟨v, vs, rfl⟩ := List.exists_cons_of_ne_nil (l := later) (by rintro rfl; cases first')
    simpa [List.getLast?_append] using unbroken'.last

theorem unbroken_word (w : List Char) : Unbroken [.word w] := by
  refine ⟨.singleton _, ⟨w, rfl⟩, ?_⟩
  simp [Token.Completes]

theorem Unbroken.word_mark {w : List Char} {later : List Token} {m : Mark} (other : m ≠ .closes)
    (unbroken : Unbroken later) : Unbroken (.word w :: .mark m :: later) :=
  (unbroken_word w).append_mark other unbroken

mutual

theorem Derives.unbroken {tokens : List Token} {t : TypeTag} : Derives tokens t → Unbroken tokens
  | .primitive _ => unbroken_word _
  | .vector element => element.unbroken.append_closes.word_mark (by decide)
  | .struct _ => ((unbroken_word _).word_mark (by decide)).word_mark (by decide)
  | .generic _ parameters =>
    ((parameters.unbroken.word_mark (by decide)).word_mark (by decide)).word_mark (by decide)

theorem Listed.unbroken {tokens : List Token} {ts : List TypeTag} :
    Listed Derives tokens ts → Unbroken tokens
  | .last only => only.unbroken.append_closes
  | .more first others => first.unbroken.append_mark (by decide) others.unbroken

end

/-- Brackets with nothing between them and commas in front of a closing bracket are in no type. -/
theorem Derives.completes {tokens : List Token} {t : TypeTag} (derived : Derives tokens t) {token : Token}
    (inside : [token, .closes] <:+: tokens) : token.Completes := by
  obtain ⟨front, back, rfl⟩ := inside
  have chain := derived.unbroken.chain.left_of_append.right_of_append
  exact List.isChain_pair.mp chain rfl

/-! ### Spelling -/

theorem Token.chars_ne_nil {token : Token} {rest : List Char} (ends : token.EndsAt rest) :
    token.chars ≠ [] := by
  cases token with
  | word w => exact ends.1.1
  | mark m => cases m <;> decide

/-- No token begins with a blank. -/
theorem Token.EndsAt.trimStart_chars {token : Token} {rest : List Char} (ends : token.EndsAt rest) :
    Text.trimStart (token.chars ++ rest) = token.chars ++ rest := by
  cases token with
  | word w => exact trimStart_word ends.1 rest
  | mark m => cases m <;> rfl

theorem spells_nil_iff {cs : List Char} : Spells [] cs ↔ Text.trimStart cs = [] := by
  constructor
  · rintro ⟨blank⟩
    exact List.dropWhile_eq_nil_iff.mpr blank
  · intro trimmed
    exact .nil (List.dropWhile_eq_nil_iff.mp trimmed)

theorem spells_cons_iff {token : Token} {tokens : List Token} {cs : List Char} :
    Spells (token :: tokens) cs ↔
      ∃ rest, Text.trimStart cs = token.chars ++ rest ∧ token.EndsAt rest ∧ Spells tokens rest := by
  constructor
  · rintro (_ | ⟨blank, ends, later⟩)
    refine ⟨_, ?_, ends, later⟩
    rw [Text.trimStart, List.dropWhile_append_of_pos blank]
    exact ends.trimStart_chars
  · rintro ⟨rest, next, ends, later⟩
    rw [← List.takeWhile_append_dropWhile (p := Text.isBlank) (l := cs)]
    rw [show cs.dropWhile Text.isBlank = token.chars ++ rest from next]
    exact .cons (fun c => List.mem_takeWhile_imp) ends later

/-- White space in front makes no difference. -/
theorem spells_trimStart_iff {tokens : List Token} {cs : List Char} :
    Spells tokens (Text.trimStart cs) ↔ Spells tokens cs := by
  have twice : Text.trimStart (Text.trimStart cs) = Text.trimStart cs :=
    List.dropWhile_idempotent _ cs
  cases tokens with
  | nil => rw [spells_nil_iff, spells_nil_iff, twice]
  | cons token tokens => rw [spells_cons_iff, spells_cons_iff, twice]

theorem Spells.length_le {tokens : List Token} {cs : List Char} (spelled : Spells tokens cs) :
    tokens.length ≤ cs.length := by
  induction spelled with
  | nil => exact Nat.zero_le _
  | @cons blanks token tokens rest blank ends later ih =>
    have some := List.length_pos_iff.mpr (Token.chars_ne_nil ends)
    simp only [List.length_cons, List.length_append]
    omega

/-- The characters up to where a token ends are those of no other token. -/
theorem Token.EndsAt.eq_of_append_eq {token token' : Token} {rest rest' : List Char} (ends : token.EndsAt rest)
    (ends' : token'.EndsAt rest') (same : token.chars ++ rest = token'.chars ++ rest') :
    token = token' ∧ rest = rest' := by
  have apart : ∀ {w rest rest' : List Char} (m : Mark), IsWord w → w ++ rest ≠ m.text.toList ++ rest' := by
    intro w rest rest' m isWord same
    obtain ⟨some, all⟩ := isWord_iff.mp isWord
    obtain ⟨c, cs, rfl⟩ := List.exists_cons_of_ne_nil some
    have inside := all c List.mem_cons_self
    have first := congrArg List.head? same
    cases m <;> cases first <;> cases inside
  cases token with
  | word w =>
    cases token' with
    | word w' =>
      have taken := congrArg (List.takeWhile Identifier.isNameChar) same
      have left := congrArg (List.dropWhile Identifier.isNameChar) same
      simp only [chars, takeWhile_word ends.1 ends.2, takeWhile_word ends'.1 ends'.2,
        dropWhile_word ends.1 ends.2, dropWhile_word ends'.1 ends'.2] at taken left
      exact ⟨congrArg word taken, left⟩
    | mark m => exact absurd same (apart m ends.1)
  | mark m =>
    cases token' with
    | word w => exact absurd same.symm (apart m ends'.1)
    | mark m' =>
      have first := congrArg List.head? same
      obtain rfl : m = m' := by
        cases m <;> cases m' <;> first | rfl | cases first
      exact ⟨rfl, List.append_cancel_left same⟩

/-- A mark is next exactly when the text goes on with its characters. -/
theorem Spells.starts_iff {tokens : List Token} {cs : List Char} (spelled : Spells tokens cs) (m : Mark) :
    m.text.toList <+: Text.trimStart cs ↔ tokens.head? = some (.mark m) := by
  cases tokens with
  | nil =>
    rw [spells_nil_iff.mp spelled]
    cases m <;> decide
  | cons token tokens =>
    obtain ⟨rest, next, ends, -⟩ := spells_cons_iff.mp spelled
    rw [next, List.head?_cons, Option.some.injEq]
    constructor
    · rintro ⟨rest', same⟩
      have here : (Token.mark m).EndsAt rest' := trivial
      exact (here.eq_of_append_eq ends same).1.symm
    · rintro rfl
      exact List.prefix_append _ _

theorem Spells.eq {tokens tokens' : List Token} {cs : List Char} (spelled : Spells tokens cs)
    (spelled' : Spells tokens' cs) : tokens = tokens' := by
  induction tokens generalizing tokens' cs with
  | nil =>
    cases tokens' with
    | nil => rfl
    | cons token' tokens' =>
      obtain ⟨rest, next, ends, -⟩ := spells_cons_iff.mp spelled'
      rw [spells_nil_iff.mp spelled, eq_comm, List.append_eq_nil_iff] at next
      exact absurd next.1 (Token.chars_ne_nil ends)
  | cons token tokens ih =>
    obtain ⟨rest, next, ends, later⟩ := spells_cons_iff.mp spelled
    cases tokens' with
    | nil =>
      rw [spells_nil_iff.mp spelled', eq_comm, List.append_eq_nil_iff] at next
      exact absurd next.1 (Token.chars_ne_nil ends)
    | cons token' tokens' =>
      obtain ⟨rest', next', ends', later'⟩ := spells_cons_iff.mp spelled'
      obtain ⟨rfl, rfl⟩ := ends.eq_of_append_eq ends' (next.symm.trans next')
      rw [ih later later']

end MoveTx.TypeTag
