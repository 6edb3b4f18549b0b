import PrivatePresentation.Circuit.Assignment
import PrivatePresentation.Proofs.Circuit.Rule

/-!
Synthesis that fills in values.  Rows can be written down while each new variable is given its value
from the values of what it is made of, as far as these are known: none are when keys are made, and all
when a proof is made.  Gadget by gadget this emits the very rows and witnesses of an emission that knows
no values, and each value is that of the hint.
-/

namespace PrivatePresentation

/-- What a system is synthesized for.  Variables have no values when keys are made of it, and each has
one when it is proved. -/
inductive Purpose where
  | keys
  | proof
deriving DecidableEq, Repr

/-- The value that a new variable keeps of the one that is offered. -/
def Purpose.keep : Purpose → Option Scalar → Except SynthesisError (Option Scalar)
  | .keys, _ => .ok none
  | .proof, some x => .ok (some x)
  | .proof, none => .error .assignmentMissing

/-- A system while it is synthesized: the values of its variables, and its rows. -/
structure Workspace where
  inputs : List (Option Scalar)
  witnesses : List (Option Scalar)
  rows : List Row
deriving DecidableEq, Repr

/-- A combination of variables with its value, if that is known. -/
structure Tracked where
  combination : Combination
  value : Option Scalar
deriving DecidableEq, Repr

/-- A constant, or a combination of variables that is tracked. -/
inductive Cell where
  | constant (value : Scalar)
  | linear (tracked : Tracked)
deriving DecidableEq, Repr

/-- A result of two values that are known. -/
def bothKnown {α : Type} (f : Scalar → Scalar → α) : Option Scalar → Option Scalar → Option α
  | some x, some y => some (f x y)
  | _, _ => none

namespace Cell

/-- The cell as a combination. -/
def tracked : Cell → Tracked
  | .constant c => ⟨.constant c, some c⟩
  | .linear x => x

/-- The difference of two cells. -/
def sub : Cell → Cell → Cell
  | .constant a, .constant b => .constant (a - b)
  | a, b => .linear ⟨a.tracked.combination.sub b.tracked.combination,
      bothKnown (· - ·) a.tracked.value b.tracked.value⟩

/-- The sum of two cells. -/
def add : Cell → Cell → Cell
  | .constant a, .constant b => .constant (a + b)
  | a, b => .linear ⟨a.tracked.combination ++ b.tracked.combination,
      bothKnown (· + ·) a.tracked.value b.tracked.value⟩

end Cell

/-- Synthesis for some purpose, in a workspace. -/
def Fill (α : Type) := Purpose → Workspace → Except SynthesisError (α × Workspace)

namespace Fill

/-- Adds nothing. -/
def pure {α : Type} (a : α) : Fill α := fun _ ws => .ok (a, ws)

/-- Adds one thing after another. -/
def bind {α β : Type} (m : Fill α) (g : α → Fill β) : Fill β := fun purpose ws =>
  match m purpose ws with
  | .error e => .error e
  | .ok (a, ws) => g a purpose ws

instance : Monad Fill where
  pure := pure
  bind := bind

/-- A new witness with its value. -/
def witness (value : Option Scalar) : Fill Tracked := fun purpose ws =>
  match purpose.keep value with
  | .error e => .error e
  | .ok kept => .ok (⟨.var (.witness ws.witnesses.length), kept⟩,
      { ws with witnesses := ws.witnesses ++ [kept] })

/-- A new row. -/
def enforce (left right output : Combination) : Fill Unit := fun _ ws =>
  .ok ((), { ws with rows := ws.rows ++ [⟨left, right, output⟩] })

/-- Nothing can be added. -/
def fail {α : Type} (e : SynthesisError) : Fill α := fun _ _ => .error e

/-- A binary digit of a value. -/
def digit (of : Tracked) (place : Nat) : Fill Tracked := do
  let b ← witness (of.value.map fun x => if x.val.testBit place then 1 else 0)
  enforce (Combination.sub (.var .one) b.combination) b.combination []
  return b

/-- The binary digits of a value, beginning with a given place. -/
def digits (of : Tracked) : Nat → Nat → Fill (List Tracked)
  | _, 0 => return []
  | place, count + 1 => do
    let b ← digit of place
    let rest ← digits of (place + 1) count
    return b :: rest

/-- The value is below `2 ^ width`. -/
def inDomain : Cell → Fill Unit
  | .constant c => if c.val < 2 ^ Gadget.width then return () else fail .unsatisfiable
  | .linear x => do
    let bits ← digits x 0 Gadget.width
    enforce (x.combination.sub (Gadget.weighted 1 (bits.map (·.combination)))) (.var .one) []

/-- The first value is not greater than the second one, both being below `2 ^ width`. -/
def atMost (a b : Cell) : Fill Unit := inDomain (b.sub a)

/-- The two values are equal. -/
def equal (a b : Cell) : Fill Unit :=
  enforce (a.tracked.combination.sub b.tracked.combination) (.var .one) []

/-- One if the two values differ, else zero. -/
def differs (x y : Tracked) : Fill Tracked := do
  let flag ← witness (bothKnown (fun x y => if x = y then 0 else 1) x.value y.value)
  let multiplier ← witness
    (bothKnown (fun x y => if x = y then 1 else (x - y).inverse) x.value y.value)
  enforce (x.combination.sub y.combination) multiplier.combination flag.combination
  enforce (x.combination.sub y.combination) (Combination.sub (.var .one) flag.combination) []
  return flag

/-- One if the two values are equal, else zero. -/
def isEqual (a b : Cell) : Fill Tracked := do
  let flag ← differs a.tracked b.tracked
  return ⟨Combination.sub (.var .one) flag.combination, flag.value.map (1 - ·)⟩

/-- The two values differ. -/
def notEqual (a b : Cell) : Fill Unit := do
  let same ← isEqual a b
  enforce same.combination (.var .one) []

/-- One of two values, by a condition of one or zero. -/
def select (condition : Tracked) (onTrue onFalse : Cell) : Fill Cell := do
  let t := onTrue.tracked
  let f := onFalse.tracked
  let r ← witness
    (condition.value.bind fun c => bothKnown (fun t f => if c = 1 then t else f) t.value f.value)
  enforce condition.combination (t.combination.sub f.combination)
    (r.combination.sub f.combination)
  return .linear r

/-- The gadgets of a comparison. -/
def comparison (comparator : Comparator) (a b : Cell) : Fill Unit := do
  if !comparator.isEquality then
    inDomain a
    inDomain b
  match comparator with
  | .greaterEqual => atMost b a
  | .greaterThan => atMost (b.add (.constant 1)) a
  | .lessEqual => atMost a b
  | .lessThan => atMost (a.add (.constant 1)) b
  | .equal => equal a b
  | .notEqual => notEqual a b

section Rules

variable (cell : Slot → Cell)

/-- The gadgets of a minimum age. -/
def age (birth current : DateSlots) (minAge : Scalar) : Fill Unit := do
  let birthYear := cell birth.year
  let birthMonth := cell birth.month
  let birthDay := cell birth.day
  let twelve := Cell.constant 12
  let thirtyOne := Cell.constant 31
  inDomain birthYear
  let lastYear := (cell current.year).sub (.constant minAge)
  atMost birthYear lastYear
  let sameYear ← isEqual birthYear lastYear
  let monthBound ← select sameYear (cell current.month) twelve
  atMost birthMonth monthBound
  let sameMonth ← isEqual birthMonth (cell current.month)
  let dayInMonth ← select sameMonth (cell current.day) thirtyOne
  let dayBound ← select sameYear dayInMonth thirtyOne
  atMost birthDay dayBound
  atMost (.constant 1) birthMonth
  atMost birthMonth twelve
  atMost (.constant 1) birthDay
  atMost birthDay thirtyOne

/-- The gadgets of a rule. -/
def rule : Rule → Fill Unit
  | .range slot min max => do
    atMost (.constant min) (cell slot)
    atMost (cell slot) (.constant max)
  | .compare left comparator (.slot right) => comparison comparator (cell left) (cell right)
  | .compare left comparator (.constant k) => comparison comparator (cell left) (.constant k)
  | .age birth current minAge => age cell birth current minAge

/-- The gadgets of some rules, one after the other. -/
def rules : List PlannedRule → Fill Unit
  | [] => return ()
  | r :: rest => do
    rule cell r.rule
    rules rest

end Rules
end Fill

/-- What a variable keeps of a value that is known. -/
def Purpose.shown (purpose : Purpose) (x : Scalar) : Option Scalar :=
  if purpose = .proof then some x else none

/-- The workspace after an emission, whose witnesses have the values of their hints unless keys are
made. -/
def Workspace.extend (ws : Workspace) (purpose : Purpose) (v : Variable → Scalar) (f : Fragment) :
    Workspace where
  inputs := ws.inputs
  witnesses := ws.witnesses ++ f.hints.map fun h => purpose.shown (h.eval v)
  rows := ws.rows ++ f.rows

theorem Workspace.extend_append (ws : Workspace) (purpose : Purpose) (v : Variable → Scalar)
    (f g : Fragment) : (ws.extend purpose v f).extend purpose v g = ws.extend purpose v (f.append g) := by
  simp only [extend, Fragment.append, List.map_append, List.append_assoc]

theorem Workspace.length_extend (ws : Workspace) (purpose : Purpose) (v : Variable → Scalar)
    (f : Fragment) :
    (ws.extend purpose v f).witnesses.length = ws.witnesses.length + f.hints.length := by
  simp only [extend, List.length_append, List.length_map]

variable {α β γ δ : Type} {purpose : Purpose} {v : Variable → Scalar}

/-- The combination is tracked: for a proof its value is known. -/
structure Tracked.Shows (purpose : Purpose) (v : Variable → Scalar) (l : Combination) (x : Tracked) :
    Prop where
  combination : x.combination = l
  value : purpose = .proof → x.value = some (l.eval v)

/-- The cell is the wire, with its value where that is known. -/
inductive Cell.Shows (purpose : Purpose) (v : Variable → Scalar) : Wire → Cell → Prop where
  | constant (c : Scalar) : Shows purpose v (.constant c) (.constant c)
  | linear {l : Combination} {x : Tracked} (hx : x.Shows purpose v l) :
      Shows purpose v (.linear l) (.linear x)

theorem bothKnown_eq {x y : Option Scalar} {a b : Scalar} (f : Scalar → Scalar → α)
    (hx : x = some a) (hy : y = some b) : bothKnown f x y = some (f a b) := by
  rw [hx, hy, bothKnown]

namespace Cell

variable {a b : Wire} {x y : Cell}

theorem Shows.tracked (hx : x.Shows purpose v a) (hone : v .one = 1) :
    x.tracked.Shows purpose v a.combination := by
  cases hx with
  | constant c => exact ⟨rfl, fun _ => congrArg some (Combination.eval_constant v c hone).symm⟩
  | linear hx => exact hx

theorem Shows.sub (hx : x.Shows purpose v a) (hy : y.Shows purpose v b) (hone : v .one = 1) :
    (x.sub y).Shows purpose v (a.sub b) := by
  have hdifference : Tracked.Shows purpose v (a.combination.sub b.combination)
      ⟨x.tracked.combination.sub y.tracked.combination,
        bothKnown (· - ·) x.tracked.value y.tracked.value⟩ := by
    refine ⟨by rw [(hx.tracked hone).combination, (hy.tracked hone).combination], fun hp => ?_⟩
    rw [bothKnown_eq _ ((hx.tracked hone).value hp) ((hy.tracked hone).value hp),
      Combination.eval_sub]
  cases hx with
  | constant c =>
      cases hy with
      | constant d => exact .constant _
      | linear hy => exact .linear hdifference
  | linear hx => exact .linear hdifference

theorem Shows.add (hx : x.Shows purpose v a) (hy : y.Shows purpose v b) (hone : v .one = 1) :
    (x.add y).Shows purpose v (a.add b) := by
  have hsum : Tracked.Shows purpose v (a.combination ++ b.combination)
      ⟨x.tracked.combination ++ y.tracked.combination,
        bothKnown (· + ·) x.tracked.value y.tracked.value⟩ := by
    refine ⟨by rw [(hx.tracked hone).combination, (hy.tracked hone).combination], fun hp => ?_⟩
    rw [bothKnown_eq _ ((hx.tracked hone).value hp) ((hy.tracked hone).value hp),
      Combination.eval_append]
  cases hx with
  | constant c =>
      cases hy with
      | constant d => exact .constant _
      | linear hy => exact .linear hsum
  | linear hx => exact .linear hsum

end Cell

namespace Fill

/-- Whatever the emission emits of values that follow its hints, is added together with the values, and
the result shows that of the emission. -/
def Simulates (purpose : Purpose) (v : Variable → Scalar) (d : Fill β) (m : Emit α)
    (shows : α → β → Prop) : Prop :=
  ∀ ws a f, m ws.witnesses.length = .ok (a, f) → HonestFrom v ws.witnesses.length f.hints →
    ∃ b, d purpose ws = .ok (b, ws.extend purpose v f) ∧ shows a b

theorem Simulates.bind {d : Fill β} {m : Emit α} {shows : α → β → Prop} {h : β → Fill δ}
    {g : α → Emit γ} {shows' : γ → δ → Prop} (hm : Simulates purpose v d m shows)
    (hg : ∀ a b, shows a b → Simulates purpose v (h b) (g a) shows') :
    Simulates purpose v (d >>= h) (m >>= g) shows' := by
  intro ws c f hrun hhonest
  obtain ⟨a, first, second, hfirst, hsecond, rfl⟩ := Emit.of_bind hrun
  obtain ⟨hhonest₁, hhonest₂⟩ := honestFrom_append.1 hhonest
  obtain ⟨b, hb, hshows⟩ := hm ws a first hfirst hhonest₁
  rw [← ws.length_extend purpose v first] at hsecond hhonest₂
  obtain ⟨e, he, hshows'⟩ := hg a b hshows _ c second hsecond hhonest₂
  refine ⟨e, ?_, hshows'⟩
  change Fill.bind d h purpose ws = _
  rw [Fill.bind, hb, ← ws.extend_append]
  exact he

theorem Simulates.pure {shows : α → β → Prop} {a : α} {b : β} (hshows : shows a b) :
    Simulates purpose v (Fill.pure b) (Emit.pure a) shows := by
  intro ws c f hrun _
  obtain ⟨rfl, rfl⟩ := Prod.mk.inj (Except.ok.inj hrun)
  refine ⟨b, ?_, hshows⟩
  simp only [Fill.pure, Workspace.extend, List.map_nil, List.append_nil]

section Gadgets

variable {l r : Combination} {x y : Tracked} {a b : Wire} {p q : Cell}

end Gadgets

section Rules

variable {cell : Slot → Cell} {layout : Layout}

end Rules

end Fill

/-- The variable of a slot with the value that it has in a workspace. -/
def Workspace.cell (ws : Workspace) (s : Slot) : Cell :=
  .linear ⟨.var s.variable,
    match s with
    | .input i => ws.inputs[i]?.join
    | .secret i => ws.witnesses[i]?.join⟩

/-- The system of a workspace, which is all but the values. -/
def Workspace.system (ws : Workspace) : ConstraintSystem :=
  ⟨ws.inputs.length, ws.witnesses.length, ws.rows⟩

namespace CircuitInstance

/-- The values of the slots, as far as there are any: those of the public fields and those of the
secret ones, each in the order of declaration. -/
def slotValues (i : CircuitInstance) : List (Option Scalar) × List (Option Scalar) :=
  match i.values with
  | some a => (a.inputs.map some, a.secrets.map some)
  | none => (List.replicate i.circuit.layout.publicFields.length none,
      List.replicate i.circuit.layout.secretFields.length none)

end CircuitInstance
end PrivatePresentation
