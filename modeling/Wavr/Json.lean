import Mathlib.Algebra.Order.Field.Rat

/-!
# JSON values as an interpreter holds them

Doubles with NaN and the infinities, the values that `json` decodes, and what reading such a value
raises.
-/

namespace Wavr

/-- Builtin exceptions. -/
inductive Raised
  | typeError
  | valueError
  | overflowError
  | keyError
  deriving DecidableEq

section
variable {α β : Type}

/-- What is raised meets `E`, and what comes out meets `Q`. -/
def Meets (E : Raised → Prop) (Q : α → Prop) : Except Raised α → Prop
  | .error e => E e
  | .ok a => Q a

namespace Meets
variable {E E' : Raised → Prop} {P Q : α → Prop} {x : Except Raised α}

theorem pure {a : α} (h : Q a) : Meets E Q (Pure.pure a) := h

theorem mono (h : Meets E P x) (hQ : ∀ a, P a → Q a) : Meets E Q x := by
  cases x with
  | error e => exact h
  | ok a => exact hQ a h

theorem bind {Q : β → Prop} {f : α → Except Raised β} (h : Meets E P x) (hf : ∀ a, P a → Meets E Q (f a)) :
    Meets E Q (x >>= f) := by
  cases x with
  | error e => exact h
  | ok a => exact hf a h

theorem map {Q : β → Prop} {f : α → β} (h : Meets E P x) (hf : ∀ a, P a → Q (f a)) :
    Meets E Q (f <$> x) := by
  cases x with
  | error e => exact h
  | ok a => exact hf a h

theorem trivial (x : Except Raised α) : Meets (fun _ => True) (fun _ => True) x := by
  cases x <;> exact True.intro

theorem of_ok {a : α} (h : Meets E Q x) (hx : x = .ok a) : Q a := by
  rw [hx] at h
  exact h

/-- Where nothing may be raised, something comes out. -/
theorem exists_ok (h : Meets (fun _ => False) Q x) : ∃ a, x = .ok a ∧ Q a := by
  cases x with
  | error e => exact h.elim
  | ok a => exact ⟨a, rfl, h⟩

end Meets

/-- `try: x` with `except kinds: handler`. -/
def catching (kinds : List Raised) (x handler : Except Raised α) : Except Raised α :=
  match x with
  | .error e => if e ∈ kinds then handler else .error e
  | .ok a => .ok a

theorem Meets.catching {kinds : List Raised} {E : Raised → Prop} {Q : α → Prop}
    {x handler : Except Raised α} (h : Meets (· ∈ kinds) Q x) (hhandler : Meets E Q handler) :
    Meets E Q (catching kinds x handler) := by
  cases x with
  | error e =>
    have he : e ∈ kinds := h
    simpa only [Wavr.catching, if_pos he] using hhandler
  | ok a => exact h

end

/-! ## A conversion of every member of a list -/

section
variable {ε α β : Type}

/-- A loop that stops at the first failure comes to its end where no element fails. -/
theorem exists_mapM {f : α → Except ε β} {Q : β → Prop} {l : List α} :
    (∃ out, l.mapM f = .ok out ∧ ∀ b ∈ out, Q b) ↔ ∀ a ∈ l, ∃ b, f a = .ok b ∧ Q b := by
  induction l with
  | nil => simp [pure, Except.pure]
  | cons a l ih =>
    rw [List.forall_mem_cons, ← ih, List.mapM_cons]
    cases ha : f a with
    | error e => simp [bind, Except.bind]
    | ok b =>
      cases hl : l.mapM f with
      | error e => simp [bind, Except.bind]
      | ok bs => simp [bind, Except.bind, pure, Except.pure]

theorem returns_mapM {f : α → Except ε β} {l : List α} :
    (∃ out, l.mapM f = .ok out) ↔ ∀ a ∈ l, ∃ b, f a = .ok b := by
  simpa using exists_mapM (f := f) (l := l) (Q := fun _ => True)

theorem mapM_map_ok {γ : Type} {f : β → Except ε γ} {g : α → β} {h : α → γ} (hf : ∀ a, f (g a) = .ok (h a))
    (l : List α) : (l.map g).mapM f = .ok (l.map h) := by
  induction l with
  | nil => rfl
  | cons a l ih =>
    rw [List.map_cons, List.mapM_cons, hf, ih]
    rfl

theorem length_of_mapM {f : α → Except ε β} {l : List α} {out : List β} (h : l.mapM f = .ok out) :
    out.length = l.length := by
  induction l generalizing out with
  | nil =>
    cases h
    rfl
  | cons a l ih =>
    rw [List.mapM_cons] at h
    cases ha : f a with
    | error e => simp [ha, bind, Except.bind] at h
    | ok b =>
      cases hl : l.mapM f with
      | error e => simp [ha, hl, bind, Except.bind] at h
      | ok bs =>
        simp only [ha, hl, bind, Except.bind, pure, Except.pure, Except.ok.injEq] at h
        rw [← h, List.length_cons, List.length_cons, ih hl]

/-- From `x >>= f` to its two halves. -/
theorem exists_of_bind_ok {x : Except ε α} {f : α → Except ε β} {b : β} (h : x >>= f = .ok b) :
    ∃ a, x = .ok a ∧ f a = .ok b := by
  cases x with
  | error e => cases h
  | ok a => exact ⟨a, rfl, h⟩

end

/-! ## Numbers -/

/-- A double. A decimal stands for the double nearest to it, and the two zeros are one. -/
inductive Double
  | nan
  | inf (negative : Bool)
  | finite (q : ℚ)
  deriving DecidableEq

namespace Double

def isfinite : Double → Bool
  | finite _ => true
  | _ => false

def isZero (x : Double) : Bool := x = finite 0

def lt : Double → Double → Bool
  | finite p, finite q => p < q
  | inf true, inf false => true
  | inf true, finite _ => true
  | finite _, inf false => true
  | _, _ => false

/-- `max(a, b)` and `min(a, b)` keep the first argument unless the second beats it. -/
def max (a b : Double) : Double := if lt a b then b else a

def min (a b : Double) : Double := if lt b a then b else a

/-- `int(x)`. -/
def toInt : Double → Except Raised ℤ
  | nan => .error .valueError
  | inf _ => .error .overflowError
  | finite q => .ok (if 0 ≤ q then q.floor else q.ceil)

end Double

/-- What the interpreter computes on numbers whose doubles are of type `F`. -/
structure Numbers (F : Type) where
  isZero : F → Bool
  /-- `int(x)`. -/
  trunc : F → Except Raised ℤ
  /-- `float(n)`; `none` is the OverflowError. -/
  ofInt : ℤ → Option F
  /-- `float(s)`; `none` is the ValueError, as for `int(s)`. -/
  floatOfStr : String → Option F
  intOfStr : String → Option ℤ

/-- `float(n)`. -/
def Numbers.widen {F : Type} (nb : Numbers F) (n : ℤ) : Except Raised F :=
  match nb.ofInt n with
  | some x => .ok x
  | none => .error .overflowError

/-- The conversions that are not written out here. -/
structure Conversions where
  ofInt : ℤ → Option ℚ
  floatOfStr : String → Option Double
  intOfStr : String → Option ℤ

def Conversions.numbers (cv : Conversions) : Numbers Double where
  isZero := Double.isZero
  trunc := Double.toInt
  ofInt n := (cv.ofInt n).map .finite
  floatOfStr := cv.floatOfStr
  intOfStr := cv.intOfStr

/-! ## Values -/

/-- A decoded document. -/
inductive Json (F : Type)
  | null
  | bool (b : Bool)
  | int (n : ℤ)
  | float (x : F)
  | str (s : String)
  | arr (items : List (Json F))
  | obj (fields : List (String × Json F))

namespace Json
variable {F : Type}

/-- `d.get(k)`. -/
def get (fields : List (String × Json F)) (k : String) : Json F := (fields.lookup k).getD .null

/-- `d[k]`. -/
def item (fields : List (String × Json F)) (k : String) : Except Raised (Json F) :=
  match fields.lookup k with
  | some v => .ok v
  | none => .error .keyError

variable (nb : Numbers F)

/-- `bool(v)`. -/
def truthy : Json F → Bool
  | null => false
  | bool b => b
  | int n => n ≠ 0
  | float x => ! nb.isZero x
  | str s => s ≠ ""
  | arr items => ! items.isEmpty
  | obj fields => ! fields.isEmpty

/-- `a or b`. -/
def orElse (a b : Json F) : Json F := if truthy nb a then a else b

/-- `int(v)`. -/
def toInt : Json F → Except Raised ℤ
  | bool b => .ok (if b then 1 else 0)
  | int n => .ok n
  | float x => nb.trunc x
  | str s => match nb.intOfStr s with
    | some n => .ok n
    | none => .error .valueError
  | _ => .error .typeError

/-- `float(v)`. -/
def toFloat : Json F → Except Raised F
  | bool b => nb.widen (if b then 1 else 0)
  | int n => nb.widen n
  | float x => .ok x
  | str s => match nb.floatOfStr s with
    | some x => .ok x
    | none => .error .valueError
  | _ => .error .typeError

theorem item_eq {fields : List (String × Json F)} {k : String} (h : get fields k ≠ null) :
    item fields k = .ok (get fields k) := by
  unfold item get at *
  cases hk : fields.lookup k with
  | none =>
    rw [hk] at h
    exact absurd rfl h
  | some v => rfl

theorem orElse_arr (items : List (Json F)) : orElse nb (arr items) (arr []) = arr items := by
  cases items <;> rfl

theorem orElse_obj (fields : List (String × Json F)) : orElse nb (obj fields) (obj []) = obj fields := by
  cases fields <;> rfl

/-- No object of the value has a key twice. -/
inductive Distinct : Json F → Prop
  | null : Distinct null
  | bool (b : Bool) : Distinct (bool b)
  | int (n : ℤ) : Distinct (int n)
  | float (x : F) : Distinct (float x)
  | str (s : String) : Distinct (str s)
  | arr {items : List (Json F)} (hitems : ∀ v ∈ items, Distinct v) : Distinct (arr items)
  | obj {fields : List (String × Json F)} (hkeys : (fields.map Prod.fst).Nodup)
      (hvalues : ∀ kv ∈ fields, Distinct kv.2) : Distinct (obj fields)

/-- What a conversion of a decoded value raises. -/
def CONVERSION_ERRORS : List Raised := [.typeError, .valueError, .overflowError]

theorem meets_toInt (cv : Conversions) (v : Json Double) :
    Meets (· ∈ CONVERSION_ERRORS) (fun _ => True) (toInt cv.numbers v) := by
  cases v with
  | float x => cases x <;> simp [toInt, Conversions.numbers, Double.toInt, Meets, CONVERSION_ERRORS]
  | str s =>
    unfold toInt
    dsimp only
    split <;> simp [Meets, CONVERSION_ERRORS]
  | _ => simp [toInt, Meets, CONVERSION_ERRORS]

end Json

/-- `json.dumps` and `json.loads`: what was written is read back, dictionaries in their order. -/
structure JsonText (F : Type) where
  Text : Type
  dumps : Json F → Text
  /-- `none` is the JSONDecodeError. -/
  loads : Text → Option (Json F)
  loads_dumps : ∀ v, v.Distinct → loads (dumps v) = some v

end Wavr
