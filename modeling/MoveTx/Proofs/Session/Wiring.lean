import MoveTx.Proofs.Draft.Wiring
import MoveTx.Proofs.Session.Receiving

/-!
# How calls are wired

A call appends the vectors that its values need and then itself, with one argument for each parameter that
the caller fills. Each argument is what its value was lowered to, however the values before and after it
share inputs.
-/

namespace MoveTx
open Step

def Command.IsVector (c : Command) : Prop :=
  ∃ type elements, c = .makeMoveVec type elements

namespace CallValue

theorem object?_eq_named? {v : CallValue} {p : Parameter} (fits : v.canBeObject p = true) :
    v.object? = v.named? p := by
  cases v with
  | address id => exact (if_pos fits).symm
  | pure | seq | absent | present => cases fits
  | _ => rfl

theorem filterMap_object? {items : List CallValue} {p : Parameter}
    (fits : items.all (canBeObject p) = true) :
    items.filterMap object? = items.filterMap (named? p) :=
  List.filterMap_congr fun item inside => object?_eq_named? (List.all_eq_true.mp fits item inside)

end CallValue

namespace MoveFunction

/-- The caller fills all parameters but a last one for the context. -/
theorem userParameters_eq (f : MoveFunction) :
    (∃ t, f.parameters = f.userParameters ++ [t] ∧ t.isContext = true) ∨
      f.parameters = f.userParameters ∧ ∀ t, f.parameters.getLast? = some t → t.isContext = false := by
  unfold userParameters
  cases last : f.parameters.getLast? with
  | none => exact Or.inr ⟨List.getLast?_eq_none_iff.mp last, nofun⟩
  | some t =>
    obtain ⟨initial, whole⟩ := List.getLast?_eq_some_iff.mp last
    cases context : t.isContext with
    | true =>
      simp only [context, if_true, whole, List.dropLast_concat]
      exact Or.inl ⟨t, rfl, context⟩
    | false =>
      simp only [context, Bool.false_eq_true, if_false, true_and]
      exact Or.inr fun other same => Option.some.inj same ▸ context

end MoveFunction

namespace Builder

variable {b c : Builder} {start : Nat} {a : Argument}

/-- Whether an argument is what a value comes to: the handle that was given, an input of the bytes of a
pure value or of the object, or a vector with the handles of its items that was made at `start` or later. -/
inductive Wires (b : Builder) (start : Nat) (p : Parameter) : CallValue → Argument → Prop
  | pure {v : CallValue} (w : PureValue) (form : v.asPure? p = some w) (a : Argument)
      (holds : b.Holds w.toBytes a) : Wires b start p v a
  | object {v : CallValue} (a : Argument) (names : b.Names v a) : Wires b start p v a
  | vector (items : List CallValue) (type : Option TypeTag) (elements : List Argument) (j : UInt16)
      (late : start ≤ j.toNat) (made : b.commands[j.toNat]? = some (.makeMoveVec type elements))
      (names : List.Forall₂ b.Names items elements) : Wires b start p (.seq items) (.result j)

theorem Wires.mono {v : CallValue} {p : Parameter} (ext : b.Extends c) (wires : b.Wires start p v a) :
    c.Wires start p v a := by
  cases wires with
  | pure w form _ holds => exact .pure w form a (holds.mono ext)
  | object _ names => exact .object a (names.mono ext)
  | vector items type elements j late made names =>
    have stays := getElem?_of_prefix ext.commands made
    exact .vector items type elements j late stays (names.imp fun _ _ names => names.mono ext)

theorem Wires.later {v : CallValue} {p : Parameter} {start' : Nat} (le : start ≤ start')
    (wires : b.Wires start' p v a) : b.Wires start p v a := by
  cases wires with
  | pure w form _ holds => exact .pure w form a holds
  | object _ names => exact .object a names
  | vector items type elements j late made names =>
    exact .vector items type elements j (Nat.le_trans le late) made names

/-- A handle that was given appears as it is. -/
theorem wires_argument {p : Parameter} {handle : Argument} (wires : b.Wires start p (.argument handle) a) :
    a = handle := by
  cases wires with
  | pure w form => cases form
  | object _ names =>
    cases names with
    | handle => rfl
    | object names => cases names

end Builder

namespace Draft

variable {d t : Draft} {a : Argument} {v : CallValue} {p : Parameter}

theorem lower_grows (h : d.builder.WellFormed) (run : lower v p d = .ok a t) :
    ∃ commands, (∀ c ∈ commands, c.IsVector) ∧ d.builder.Grows (v.admitted p) commands t.builder ∧
      t.builder.Wires d.builder.commands.length p v a := by
  cases lower_ok run with
  | pure w form suits run =>
    obtain ⟨grows, holds⟩ := pureInput_grows h run
    rw [CallValue.admitted_of_asPure? form]
    exact ⟨[], nofun, grows, .pure w form a holds⟩
  | object fits suits run =>
    obtain ⟨grows, names⟩ := lowerObject_grows h run
    rw [(CallValue.admitted_of_canBeObject fits).1, ← CallValue.object?_eq_named? fits]
    exact ⟨[], nofun, grows, .object a names⟩
  | vector items given mixed fits type handles u each gather =>
    subst given
    have objects : ∀ item d a t, d.builder.WellFormed → lowerObject item p.element d = .ok a t →
        d.builder.Grows item.object?.toList [] t.builder ∧ t.builder.Names item a :=
      fun _ _ _ _ h run => lowerObject_grows h run
    obtain ⟨grows, names⟩ := mapM_grows_inputs Builder.lasts_names objects h each
    obtain ⟨b, inside, rfl⟩ := onBuilder_ok_iff.mp gather
    obtain ⟨grows', j, rfl, place⟩ := Builder.makeMoveVec_grows grows.wellFormed inside
    have all := grows.trans grows'
    rw [List.append_nil, List.nil_append, ← List.filterMap_eq_flatMap_toList,
      CallValue.filterMap_object? fits] at all
    have count : j.toNat = d.builder.commands.length := by rw [place, grows.appended, List.append_nil]
    have made : b.commands[j.toNat]? = some (.makeMoveVec type handles) := by
      rw [all.appended, count]
      exact List.getElem?_concat_length
    refine ⟨_, List.forall_mem_singleton.mpr ⟨type, handles, rfl⟩, ?_, ?_⟩
    · rw [CallValue.admitted, mixed, Option.isSome_none, if_neg Bool.false_ne_true]
      exact all
    · exact .vector items type handles j (Nat.le_of_eq count.symm) made
        (names.imp fun _ _ names => names.mono grows'.ext)

/-- The values that are given for parameters are lowered in order. -/
theorem lowerAll_grows (h : d.builder.WellFormed) {given : List (CallValue × MoveType)}
    {arguments : List Argument}
    (run : given.mapM (fun (value, t) => lower value (some t) : CallValue × MoveType → DraftStep Argument) d =
      .ok arguments t) :
    ∃ commands, (∀ c ∈ commands, c.IsVector) ∧
      d.builder.Grows (given.flatMap fun g => g.1.admitted (some g.2)) commands t.builder ∧
      List.Forall₂ (fun g a => t.builder.Wires d.builder.commands.length (some g.2) g.1 a)
        given arguments := by
  generalize same : d.builder.commands.length = start
  have lasts : Builder.Lasts fun b (g : CallValue × MoveType) a => b.Wires start (some g.2) g.1 a :=
    fun _ _ _ _ ext wires => wires.mono ext
  refine mapM_grows lasts ?_ h (Nat.le_of_eq same.symm) run
  rintro ⟨value, type⟩ d a t h late run
  obtain ⟨commands, vectors, grows, wires⟩ := lower_grows h run
  exact ⟨commands, vectors, grows, wires.later late⟩

/-! ### Receiving the last argument -/

/-- Only the object whose input is the last handle may have its slot changed. -/
theorem receiveLast_spares (h : d.builder.WellFormed) {handles : List Argument}
    (run : receiveLast handles d = .ok () t) :
    t.builder.WellFormed ∧ d.builder.Extends t.builder ∧ t.builder.commands = d.builder.commands ∧
      d.builder.Spares t.builder fun id => ∃ i : UInt16, handles.getLast? = some (.input i) ∧
        t.builder.keys[i.toNat]? = some (.object id) := by
  unfold receiveLast at run
  cases last : handles.getLast? with
  | none =>
    rw [last] at run
    obtain ⟨-, rfl⟩ := pure_ok_iff.mp run
    exact ⟨h, Builder.extends_refl _, rfl, Builder.spares_of_inputs rfl rfl⟩
  | some a =>
    rw [last] at run
    obtain ⟨b, inside, rfl⟩ := onBuilder_ok_iff.mp run
    obtain ⟨wellFormed, ext⟩ := BuilderOp.run_keeps (.markReceiving a) h rfl inside
    have filling := Builder.markReceiving_filling h a
    rw [inside] at filling
    have commands : b.commands = d.builder.commands := by
      cases filling with
      | same | fill => rfl
    refine ⟨wellFormed, ext, commands, (BuilderOp.markReceiving_spares h inside).mono ?_⟩
    intro id touched
    cases a with
    | input i => exact ⟨i, rfl, Builder.getElem?_of_prefix ext.keys touched⟩
    | _ => exact touched.elim

/-- The slots that a call may change when it comes to its last argument. -/
theorem received_spares (h : d.builder.WellFormed) {f : MoveFunction} {handles : List Argument}
    (received : if f.receivesLast then receiveLast handles d = .ok () t else t = d) :
    t.builder.WellFormed ∧ d.builder.Extends t.builder ∧ t.builder.commands = d.builder.commands ∧
      d.builder.Spares t.builder fun id => f.receivesLast = true ∧ ∃ i : UInt16,
        handles.getLast? = some (.input i) ∧ t.builder.keys[i.toNat]? = some (.object id) := by
  split at received
  · rename_i receives
    obtain ⟨wellFormed, ext, same, spares⟩ := receiveLast_spares h received
    exact ⟨wellFormed, ext, same, spares.mono fun id touched => ⟨receives, touched⟩⟩
  · subst received
    exact ⟨h, Builder.extends_refl _, rfl, Builder.spares_of_inputs rfl rfl⟩

end Draft

/-- What a call does to a builder. Behind the vectors that its values need is the call, whose arguments are
what the values come to. Of what was there before, only slots of objects may be different, of those that
the values bring in and of one that the call receives. -/
structure Builder.Calls (target : CallTarget) (f : MoveFunction) (values : List CallValue)
    (typeArguments : List TypeTag) (vectors : List Command) (arguments : List Argument) (b c : Builder) :
    Prop where
  appended : c.commands = b.commands ++ vectors ++
    [.moveCall ⟨target.package, target.module, target.function, typeArguments, arguments⟩]
  vectors : ∀ made ∈ vectors, made.IsVector
  wired : List.Forall₂ (fun given a => c.Wires b.commands.length (some given.2) given.1 a)
    (values.zip f.userParameters) arguments
  kept : ∀ (i : Nat) (key : InputKey) (slot : InputSlot), b.inputs[i]? = some (key, slot) →
    ∃ slot', c.inputs[i]? = some (key, slot') ∧ (slot' ≠ slot → ∃ id, key = .object id ∧
      ((∃ given ∈ values.zip f.userParameters, id ∈ given.1.admitted (some given.2)) ∨
        f.receivesLast = true ∧ ∃ j : UInt16, arguments.getLast? = some (.input j) ∧
          c.keys[j.toNat]? = some (.object id)))

namespace Draft

variable {d t : Draft}

theorem call_grows (h : d.builder.WellFormed) {target : CallTarget} {f : MoveFunction}
    {values : List CallValue} {typeArguments : List TypeTag} {results : List Argument}
    (run : call target f values typeArguments d = .ok results t) :
    ∃ (vectors : List Command) (arguments : List Argument) (m : UInt16),
      results = (Argument.result m).returned f.returns.length ∧
      m.toNat = d.builder.commands.length + vectors.length ∧
      d.builder.Calls target f values typeArguments vectors arguments t.builder := by
  obtain ⟨arguments, u, v, result, lowered, received, appended, rfl⟩ := call_ok run
  obtain ⟨vectors, made, grows, wired⟩ := lowerAll_grows h lowered
  obtain ⟨wellFormed, ext, same, spares⟩ := received_spares grows.wellFormed received
  obtain ⟨grows', m, rfl, place⟩ := append_grows wellFormed appended
  have later := ext.trans grows'.ext
  refine ⟨vectors, arguments, m, rfl, ?_, ?_, made, ?_, ?_⟩
  · rw [place, same, grows.appended, List.length_append]
  · rw [grows'.appended, same, grows.appended]
  · exact wired.imp fun _ _ wires => wires.mono later
  · intro i key slot there
    obtain ⟨slot', there', same | ⟨id, about, held, held'⟩⟩ :=
      (grows.ext.trans later).input h grows'.wellFormed there
    · exact ⟨slot', there', fun differs => absurd same differs⟩
    · refine ⟨slot', there', fun differs => ⟨id, about, ?_⟩⟩
      by_contra others
      obtain ⟨apart, unreceived⟩ := not_or.mp others
      -- Neither lowering nor marking nor appending has changed the slot.
      obtain ⟨lowered, held₁, -, named⟩ := grows.slots id slot held
      obtain rfl : lowered = slot := by_contra fun changed => apart (List.mem_flatMap.mp (named changed))
      have held₂ : v.builder.slotOf? id = some lowered := by
        refine (spares.slots id fun touched => unreceived ?_).trans held₁
        obtain ⟨receives, j, last, place⟩ := touched
        exact ⟨receives, j, last, Builder.getElem?_of_prefix grows'.ext.keys place⟩
      obtain ⟨final, held₃, -, named⟩ := grows'.slots id lowered held₂
      obtain rfl := Option.some.inj (held'.symm.trans held₃)
      exact List.not_mem_nil (named differs)

end Draft

namespace Builder

variable {b c : Builder} {target : CallTarget} {f : MoveFunction} {values : List CallValue}
  {typeArguments : List TypeTag} {vectors : List Command} {arguments : List Argument}

theorem Calls.count (calls : b.Calls target f values typeArguments vectors arguments c)
    (fits : values.length = f.userParameters.length) : arguments.length = f.userParameters.length := by
  rw [← calls.wired.length_eq, List.length_zip, fits, Nat.min_self]

/-- A handle that was given for a parameter is the argument at its place. -/
theorem Calls.handle (calls : b.Calls target f values typeArguments vectors arguments c)
    (fits : values.length = f.userParameters.length) {k : Nat} {handle : Argument}
    (given : values[k]? = some (.argument handle)) : arguments[k]? = some handle := by
  have inside : k < f.userParameters.length := fits ▸ (List.getElem?_eq_some_iff.mp given).1
  have pair : (values.zip f.userParameters)[k]? = some (.argument handle, f.userParameters[k]) :=
    List.getElem?_zip_eq_some.mpr ⟨given, List.getElem?_eq_getElem inside⟩
  obtain ⟨a, place, wires⟩ := forall₂_getElem? calls.wired pair
  rw [place, wires_argument wires]

end Builder

theorem MoveFunction.checkCounts_ok {f : MoveFunction} {target : String} {arguments typeArguments : Nat}
    (fits : f.checkCounts target arguments typeArguments = .ok ()) :
    f.userParameters.length = arguments ∧ f.typeParameters.length = typeArguments := by
  unfold checkCounts at fits
  split at fits
  · cases fits
  · split at fits
    · cases fits
    · exact ⟨not_not.mp ‹_›, not_not.mp ‹_›⟩

namespace Session

variable {σ : Type}

/-- A call that succeeds appends the vectors it needs and itself, as the signature of its function and the
values say. The caller fills all parameters but a last one for the context, in order. -/
theorem moveCall_calls {c : Channel σ} {s t : Online σ} (reachable : s.session.Reachable) {target : String}
    {values : List CallValue} {typeArguments : List TypeTag} {results : List Argument}
    (run : moveCall c target values typeArguments s = .ok results t) :
    ∃ call f u vectors arguments, CallTarget.parse target = .ok call ∧
      function c call.package call.module.name call.function.name s = .ok f u ∧
      ((∃ last, f.parameters = f.userParameters ++ [last] ∧ last.isContext = true) ∨
        f.parameters = f.userParameters ∧
          ∀ last, f.parameters.getLast? = some last → last.isContext = false) ∧
      values.length = f.userParameters.length ∧ arguments.length = f.userParameters.length ∧
      (∀ (k : Nat) (handle : Argument), values[k]? = some (.argument handle) → arguments[k]? = some handle) ∧
      s.session.draft.builder.Calls call f values typeArguments vectors arguments
        t.session.draft.builder := by
  obtain ⟨call, f, u, d, parsed, found, fits, taken, -, final⟩ := moveCall_ok run
  obtain ⟨vectors, arguments, m, -, -, calls⟩ := Draft.call_grows reachable.builder.wellFormed taken
  have count := (MoveFunction.checkCounts_ok fits).1.symm
  have ends : t.session.draft.builder = d.builder := by rw [final]
  rw [← ends] at calls
  exact ⟨call, f, u, vectors, arguments, parsed, found, f.userParameters_eq, count, calls.count count,
    fun k handle given => calls.handle count given, calls⟩

/-- A chain on which every function takes a number, heroes, the clock and an object to be received, and
returns two numbers. -/
def guild : Channel Unit :=
  { everyObject with
    function := fun _ _ _ => return ⟨.everywhere, false, [],
      [.u64, .vector Draft.hero, .reference (.struct .suiFramework "clock" "Clock" []),
        .struct .suiFramework "transfer" "Receiving" [.typeParameter 0],
        .mutableReference (.struct .suiFramework "tx_context" "TxContext" [])], [.u64, .u64]⟩ }

/-- A hero by its id and one that an earlier command gives, between a number and the clock. -/
def hiring : List CallValue :=
  [.pure (.ofU64 7), .seq [.objectId (.ofNat 101), .argument (.nestedResult 0 1)], .objectId .clock,
    .argument (.input 0)]

/-- A session that has split two coins off another one. -/
def hasSplit : Online Unit :=
  after (SessionOp.step guild (.build (.splitCoin (.objectId (.ofNat 102)) [7, 7])) ⟨start {}, ()⟩)

/-- The object that was the coin is received, and its handle stays the last argument. -/
theorem hiring_calls :
    ∃ t call f vectors arguments,
      moveCall guild "0x5::guild::hire" hiring [] hasSplit = .ok [.nestedResult 2 0, .nestedResult 2 1] t ∧
      arguments.length = 4 ∧ arguments[3]? = some (.input 0) ∧
      hasSplit.session.draft.builder.Calls call f hiring [] vectors arguments t.session.draft.builder := by
  have reachable : hasSplit.session.Reachable := .step guild _ _ (.start {})
  have given : (value? (moveCall guild "0x5::guild::hire" hiring [] hasSplit)).map id =
      some [.nestedResult 2 0, .nestedResult 2 1] := by decide +kernel
  obtain ⟨_, t, run, rfl⟩ := map_value?_eq_some given
  obtain ⟨call, f, u, vectors, arguments, -, -, -, fits, count, handles, calls⟩ :=
    moveCall_calls reachable run
  exact ⟨t, call, f, vectors, arguments, run, count.trans fits.symm, handles 3 _ rfl, calls⟩

end Session

end MoveTx
