import MoveTx.Proofs.Draft.Evolution
import MoveTx.Session.Submission

/-!
# Steps of a session

What the steps that sessions are made of do, whether they succeed or fail. `Session.Moves R` says that a
step takes a session only where the relation `R` allows.
-/

namespace MoveTx.Session
open Step

variable {σ α β : Type}

/-! ### Steps that succeed -/

theorem offline_ok_iff {x : SessionStep α} {s t : Online σ} {a : α} :
    offline x s = .ok a t ↔
      ∃ session, x s.session = .ok a session ∧ t = { s with session := session } := by
  unfold offline
  cases x s.session with
  | ok a' session =>
    simp only [EStateM.Result.ok.injEq]
    constructor
    · rintro ⟨rfl, rfl⟩
      exact ⟨session, ⟨rfl, rfl⟩, rfl⟩
    · rintro ⟨_, ⟨rfl, rfl⟩, rfl⟩
      exact ⟨rfl, rfl⟩
  | error e session => simp

theorem offline_of_error {x : SessionStep α} {s : Online σ} {e : ClientError} {session : Session}
    (run : x s.session = .error e session) : offline x s = .error e { s with session } := by
  unfold offline
  rw [run]

theorem offline_error_iff {x : SessionStep α} {s t : Online σ} {e : ClientError} :
    offline x s = .error e t ↔
      ∃ session, x s.session = .error e session ∧ t = { s with session := session } := by
  unfold offline
  cases x s.session with
  | ok a session => simp
  | error e' session =>
    simp only [EStateM.Result.error.injEq]
    constructor
    · rintro ⟨rfl, rfl⟩
      exact ⟨session, ⟨rfl, rfl⟩, rfl⟩
    · rintro ⟨_, ⟨rfl, rfl⟩, rfl⟩
      exact ⟨rfl, rfl⟩

theorem request_ok_iff {r : ChainRequest σ α} {s t : Online σ} {a : α} :
    request r s = .ok a t ↔ ∃ chain, r s.chain = .ok a chain ∧ t = { s with chain := chain } := by
  unfold request
  cases r s.chain with
  | ok a' chain =>
    simp only [EStateM.Result.ok.injEq]
    constructor
    · rintro ⟨rfl, rfl⟩
      exact ⟨chain, ⟨rfl, rfl⟩, rfl⟩
    · rintro ⟨_, ⟨rfl, rfl⟩, rfl⟩
      exact ⟨rfl, rfl⟩
  | error e chain => simp

theorem current_ok_iff {s t : Online σ} {session : Session} :
    (current : OnlineStep σ Session) s = .ok session t ↔ session = s.session ∧ s = t := by
  change EStateM.Result.ok s.session s = _ ↔ _
  simp [eq_comm]

theorem current_bind {f : Session → OnlineStep σ α} {s : Online σ} : (current >>= f) s = f s.session s :=
  rfl

theorem ofExcept_ok_iff {ε : Type} {wrap : ε → ClientError} {x : Except ε α} {s t : Online σ} {a : α} :
    ofExcept wrap x s = .ok a t ↔ x = .ok a ∧ s = t := by
  cases x with
  | ok a' =>
    change EStateM.Result.ok a' s = _ ↔ _
    simp
  | error e =>
    change EStateM.Result.error (wrap e) s = _ ↔ _
    simp

theorem ofExcept_error_iff {ε : Type} {wrap : ε → ClientError} {x : Except ε α} {s t : Online σ}
    {e : ClientError} :
    (ofExcept wrap x : OnlineStep σ α) s = .error e t ↔
      ∃ fault, x = .error fault ∧ wrap fault = e ∧ s = t := by
  cases x with
  | ok a =>
    change EStateM.Result.ok a s = _ ↔ _
    simp
  | error fault =>
    change EStateM.Result.error (wrap fault) s = _ ↔ _
    simp

/-! ### Editing -/

theorem ensureOpen_cases (s : Session) :
    (∃ e, ensureOpen s = .error e s) ∨
      (s.submitted = false ∧ s.finalized = none ∧ ensureOpen s = .ok () s) := by
  have run : ensureOpen s = (if s.submitted then throw .alreadySubmitted
      else if s.finalized.isSome then throw (.builder .alreadyFinalized)
      else return () : SessionStep Unit) s := rfl
  rw [run]
  by_cases sent : s.submitted = true
  · rw [if_pos sent]
    exact Or.inl ⟨_, rfl⟩
  · rw [if_neg sent]
    cases done : s.finalized with
    | some data => exact Or.inl ⟨_, rfl⟩
    | none => exact Or.inr ⟨eq_false_of_ne_true sent, rfl, rfl⟩

theorem modify_cases (f : Session → Session) (s : Session) :
    (∃ e, (ensureOpen >>= fun _ => modify f) s = .error e s) ∨
      (s.submitted = false ∧ s.finalized = none ∧
        (ensureOpen >>= fun _ => modify f) s = .ok () (f s)) := by
  rcases ensureOpen_cases s with ⟨e, closed⟩ | ⟨unsent, undone, isOpen⟩
  · exact Or.inl ⟨e, bind_of_error closed⟩
  · exact Or.inr ⟨unsent, undone, bind_of_ok isOpen⟩

/-- An edit changes nothing, or only the draft of a session that is open. -/
theorem edit_cases (x : DraftStep α) (s : Session) :
    (∃ e, edit x s = .error e s) ∨
      ∃ a d, s.submitted = false ∧ s.finalized = none ∧ x s.draft = .ok a d ∧
        edit x s = .ok a { s with draft := d } := by
  rcases ensureOpen_cases s with ⟨e, closed⟩ | ⟨unsent, undone, isOpen⟩
  · exact Or.inl ⟨e, bind_of_error closed⟩
  · unfold edit
    rw [bind_of_ok isOpen, get_bind]
    cases taken : x s.draft with
    | error e d => exact Or.inl ⟨_, rfl⟩
    | ok a d => exact Or.inr ⟨a, d, unsent, undone, rfl, rfl⟩

/-! ### Where steps lead -/

/-- A step that takes sessions only where `R` allows, also when it fails. -/
def Moves (R : Session → Session → Prop) (x : OnlineStep σ α) : Prop :=
  ∀ s, R s.session (after (x s)).session

/-- A relation that holds along any number of steps when it holds along each. -/
structure Along (R : Session → Session → Prop) : Prop where
  refl : ∀ s, R s s
  trans : ∀ {a b c}, R a b → R b c → R a c

section

variable {R : Session → Session → Prop}

theorem moves_pure (along : Along R) (a : α) : Moves R (Pure.pure a : OnlineStep σ α) :=
  fun s => along.refl s.session

theorem moves_throw (along : Along R) (e : ClientError) : Moves R (throw e : OnlineStep σ α) :=
  fun s => along.refl s.session

theorem moves_bind (along : Along R) {x : OnlineStep σ α} {f : α → OnlineStep σ β} (first : Moves R x)
    (rest : ∀ a, Moves R (f a)) : Moves R (x >>= f) := by
  intro s
  have here := first s
  cases ended : x s with
  | ok a u =>
    rw [ended] at here
    rw [bind_of_ok ended]
    exact along.trans here (rest a u)
  | error e u =>
    rw [ended] at here
    rw [bind_of_error ended]
    exact here

theorem moves_map {x : OnlineStep σ α} {f : α → β} (moves : Moves R x) : Moves R (f <$> x) := by
  intro s
  have here := moves s
  cases ended : x s with
  | ok a u =>
    rw [ended] at here
    rw [map_of_ok ended]
    exact here
  | error e u =>
    rw [ended] at here
    rw [map_of_error ended]
    exact here

theorem moves_current (along : Along R) : Moves R (current : OnlineStep σ Session) :=
  fun s => along.refl s.session

theorem moves_ofExcept (along : Along R) {ε : Type} (wrap : ε → ClientError) (x : Except ε α) :
    Moves R (ofExcept wrap x : OnlineStep σ α) := by
  cases x with
  | ok a => exact moves_pure along a
  | error e => exact moves_throw along (wrap e)

theorem moves_request (along : Along R) (r : ChainRequest σ α) : Moves R (request r) := by
  intro s
  unfold request
  cases r s.chain with
  | ok a chain => exact along.refl s.session
  | error e chain => exact along.refl s.session

theorem moves_offline {x : SessionStep α} (moves : ∀ s, R s (after (x s))) :
    Moves R (offline x : OnlineStep σ α) := by
  intro s
  have here := moves s.session
  unfold offline
  cases ended : x s.session with
  | ok a session =>
    rw [ended] at here
    exact here
  | error e session =>
    rw [ended] at here
    exact here

theorem moves_ensureOpen (along : Along R) : Moves R (offline ensureOpen : OnlineStep σ Unit) := by
  apply moves_offline
  intro s
  rcases ensureOpen_cases s with ⟨e, run⟩ | ⟨_, _, run⟩
  · rw [run]
    exact along.refl s
  · rw [run]
    exact along.refl s

theorem Moves.ok {x : OnlineStep σ α} (moves : Moves R x) {s t : Online σ} {a : α}
    (run : x s = .ok a t) : R s.session t.session := by
  have here := moves s
  rw [run] at here
  exact here

/-- A step that takes sessions only where `R` allows when it fails. -/
def Fails (R : Session → Session → Prop) (x : OnlineStep σ α) : Prop :=
  ∀ s e t, x s = .error e t → R s.session t.session

theorem Moves.fails {x : OnlineStep σ α} (moves : Moves R x) : Fails R x := by
  intro s e t run
  have here := moves s
  rw [run] at here
  exact here

theorem fails_bind (along : Along R) {x : OnlineStep σ α} {f : α → OnlineStep σ β} (first : Moves R x)
    (rest : ∀ a, Fails R (f a)) : Fails R (x >>= f) := by
  intro s e t run
  cases ended : x s with
  | ok a u =>
    rw [bind_of_ok ended] at run
    exact along.trans (first.ok ended) (rest a u e t run)
  | error e' u =>
    rw [bind_of_error ended] at run
    cases run
    exact first.fails s e t ended

end

/-! ### What is learnt from the chain -/

/-- Nothing is different but what was learnt from the chain: a price that was not known before, or more
functions. -/
structure Frame (s t : Session) : Prop where
  config : t.config = s.config
  sender : t.sender = s.sender
  sponsor : t.sponsor = s.sponsor
  draft : t.draft = s.draft
  expiration : t.expiration = s.expiration
  finalized : t.finalized = s.finalized
  submitted : t.submitted = s.submitted
  gasPrice : s.gasPrice = none ∨ t.gasPrice = s.gasPrice
  functions : s.functions <:+ t.functions

theorem frame_refl (s : Session) : s.Frame s :=
  ⟨rfl, rfl, rfl, rfl, rfl, rfl, rfl, Or.inr rfl, List.suffix_refl _⟩

theorem Frame.trans {a b c : Session} (h₁ : a.Frame b) (h₂ : b.Frame c) : a.Frame c where
  config := h₂.config.trans h₁.config
  sender := h₂.sender.trans h₁.sender
  sponsor := h₂.sponsor.trans h₁.sponsor
  draft := h₂.draft.trans h₁.draft
  expiration := h₂.expiration.trans h₁.expiration
  finalized := h₂.finalized.trans h₁.finalized
  submitted := h₂.submitted.trans h₁.submitted
  gasPrice := by
    rcases h₁.gasPrice with unknown | same
    · exact Or.inl unknown
    · rcases h₂.gasPrice with unknown | same'
      · exact Or.inl (same ▸ unknown)
      · exact Or.inr (same'.trans same)
  functions := h₁.functions.trans h₂.functions

theorem along_frame : Along Frame :=
  ⟨frame_refl, Frame.trans⟩

theorem Frame.gasOwner {s t : Session} (frame : s.Frame t) : t.gasOwner = s.gasOwner := by
  unfold Session.gasOwner
  rw [frame.sender, frame.sponsor]

/-! ### Steps that ask the chain -/

section

variable {R : Session → Session → Prop}

theorem moves_resolve (along : Along R) (c : Channel σ) (d : Draft) : Moves R (resolve c d) := by
  unfold resolve
  simp only
  split
  · exact moves_pure along d
  · apply moves_bind along (moves_request along _)
    intro answers
    split
    · exact moves_bind along (moves_throw along _) fun _ => moves_ofExcept along _ _
    · exact moves_ofExcept along _ _

theorem moves_estimate (along : Along R) (c : Channel σ) (d : Draft) (price : UInt64) :
    Moves R (estimate c d price) := by
  unfold estimate
  apply moves_bind along (moves_current along)
  intro s
  apply moves_bind along (moves_ofExcept along _ _)
  intro probe
  apply moves_bind along (moves_request along _)
  intro r
  split
  · exact moves_pure along _
  · exact moves_throw along _

theorem moves_budgetFor (along : Along R) (c : Channel σ) (d : Draft) (price : UInt64)
    (given : Option UInt64) : Moves R (budgetFor c d price given) := by
  unfold budgetFor
  apply moves_bind along (moves_current along)
  intro s
  split
  · exact moves_pure along _
  · exact moves_estimate along c d price

/-- The price is asked for only when it is not known. -/
theorem price_run (c : Channel σ) (s : Online σ) :
    price c s = match s.session.gasPrice with
      | some p => .ok p s
      | none =>
        match c.gasPrice s.chain with
        | .ok p chain => .ok p ⟨{ s.session with gasPrice := some p }, chain⟩
        | .error e chain => .error (.chain e) { s with chain := chain } := by
  have run : price c s = (match s.session.gasPrice with
      | some price => return price
      | none => do
        let price ← request c.gasPrice
        offline (modify fun s => { s with gasPrice := some price })
        return price : OnlineStep σ UInt64) s := rfl
  rw [run]
  cases s.session.gasPrice with
  | some p => rfl
  | none =>
    cases answer : c.gasPrice s.chain with
    | ok p chain => exact bind_of_ok (request_ok_iff.mpr ⟨chain, answer, rfl⟩)
    | error e chain =>
      apply bind_of_error
      unfold request
      rw [answer]

end

/-- A relation that holds along whatever a session learns from a channel. -/
structure Learns (c : Channel σ) (R : Session → Session → Prop) : Prop extends Along R where
  price : ∀ (s : Session) p asked answered, s.gasPrice = none → c.gasPrice asked = .ok p answered →
    R s { s with gasPrice := some p }
  function : ∀ (s : Session) entry, R s { s with functions := entry :: s.functions }

theorem learns_frame (c : Channel σ) : Learns c Frame where
  toAlong := along_frame
  price := fun _ _ _ _ unknown _ =>
    ⟨rfl, rfl, rfl, rfl, rfl, rfl, rfl, Or.inl unknown, List.suffix_refl _⟩
  function := fun _ _ => ⟨rfl, rfl, rfl, rfl, rfl, rfl, rfl, Or.inr rfl, List.suffix_cons _ _⟩

section

variable {R : Session → Session → Prop} {c : Channel σ}

theorem moves_price (learns : Learns c R) : Moves R (price c) := by
  intro s
  rw [price_run]
  cases unknown : s.session.gasPrice with
  | some p => exact learns.refl _
  | none =>
    cases answer : c.gasPrice s.chain with
    | ok p chain => exact learns.price _ p _ chain unknown answer
    | error e chain => exact learns.refl _

theorem moves_function (learns : Learns c R) (package : Address) (module name : String) :
    Moves R (function c package module name) := by
  have along := learns.toAlong
  unfold function
  apply moves_bind along (moves_current along)
  intro s
  split
  · exact moves_pure along _
  · apply moves_bind along (moves_request along _)
    intro f
    exact moves_bind along (moves_offline fun t => learns.function t _) fun _ => moves_pure along f

end

end MoveTx.Session
