import Autobahn.Foundation.Exec
import Autobahn.Foundation.Machine
import Autobahn.Session.State

/-!
# Who owns the memory of a call result

A `wamp_call_result` holds two root objects and, through a `unique_ptr`, the
zone their contents lie in. Here it is modelled as it lies in memory: the
special members are programs over variables and zones, run statement by
statement, and touching a released zone is undefined.

`WampCallResult` is what such an object reads as. No sequence of operations
runs into undefined behaviour, every root stays in the zone that its own result
owns, and copies and moves do to the readings what they are for
(`callResults_owned`).
-/

namespace Autobahn

open Foundation MsgPack

namespace WampCallResult

def numberOfArguments (result : WampCallResult) : Nat := arraySize result.arguments

def numberOfKwArguments (result : WampCallResult) : Nat := mapSize result.kwArguments

end WampCallResult

namespace Ownership

/-! ## Memory -/

/-- A root: nothing yet, one of the two static empty objects, or an object
whose contents lie in a zone. -/
inductive Root : Type where
  | nil
  | emptyArguments
  | emptyKwArguments
  | object (zone : Nat) (value : Object)

def Root.value : Root → Object
  | .nil => .nil
  | .emptyArguments => EMPTY_ARGUMENTS
  | .emptyKwArguments => EMPTY_KW_ARGUMENTS
  | .object _ value => value

/-- The members of `wamp_call_result`. -/
structure ResultObject where
  arguments : Root := .emptyArguments
  kwArguments : Root := .emptyKwArguments
  zone : Option Nat := none

/-- What the object reads as. -/
def ResultObject.reading (r : ResultObject) : WampCallResult where
  arguments := r.arguments.value
  kwArguments := r.kwArguments.value

/-- `zones` says of every zone made so far whether it is still there. -/
structure Memory where
  zones : List Bool := []
  results : Table Nat ResultObject := .empty

namespace Memory

def Live (m : Memory) (z : Nat) : Prop := m.zones[z]? = some true

instance (m : Memory) (z : Nat) : Decidable (m.Live z) :=
  inferInstanceAs (Decidable (_ = _))

def find (m : Memory) (x : Nat) : Option ResultObject := m.results.find x

def read (m : Memory) (x : Nat) : Option WampCallResult :=
  (m.find x).map ResultObject.reading

def put (m : Memory) (x : Nat) (r : ResultObject) : Memory :=
  { m with results := m.results.assign x r }

def drop (m : Memory) (x : Nat) : Memory :=
  { m with results := m.results.erase x }

def grown (m : Memory) : Memory := { m with zones := m.zones ++ [true] }

def released (m : Memory) (zone : Option Nat) : Memory :=
  match zone with
  | none => m
  | some z => { m with zones := m.zones.set z false }

end Memory

/-- A zone that is gone, or a variable that is not there, has been used. -/
inductive Fault : Type where
  | undefined

abbrev MemoryM : Type → Type := Exec Memory Fault

/-- `new msgpack::zone()` -/
def newZone : MemoryM Nat := do
  let m ← get
  set m.grown
  return m.zones.length

/-- A zone is only touched while it is there. -/
def access (z : Nat) : MemoryM Unit := do
  if ¬ (← get).Live z then throw .undefined

/-- `delete` of what a `unique_ptr` holds. -/
def release (zone : Option Nat) : MemoryM Unit := do
  match zone with
  | none => pure ()
  | some z => access z
  modify fun m => m.released zone

def load (x : Nat) : MemoryM ResultObject := do
  match (← get).find x with
  | some r => pure r
  | none => throw .undefined

def store (x : Nat) (r : ResultObject) : MemoryM Unit := modify fun m => m.put x r

/-- `msgpack::object(o, zone)`: a deep copy into the zone. -/
def deepCopy (o : Root) (zone : Nat) : MemoryM Root := do
  match o with
  | .object z _ => access z
  | _ => pure ()
  access zone
  return .object zone o.value

/-! ## The special members

`x` is the object under construction or assigned to, `other` the other one. A
`unique_ptr` lets go of the zone it held last: after `reset` and `=` have put
the new one in its place. -/

def construct (x : Nat) : MemoryM Unit := store x {}

def constructFromZone (x zone : Nat) : MemoryM Unit := store x { zone := some zone }

def copyConstruct (x other : Nat) : MemoryM Unit := do
  store x { arguments := .nil, kwArguments := .nil }
  let zone ← newZone
  store x { ← load x with zone := some zone }
  store x { ← load x with arguments := ← deepCopy (← load other).arguments zone }
  store x
    { ← load x with kwArguments := ← deepCopy (← load other).kwArguments zone }

def moveConstruct (x other : Nat) : MemoryM Unit := do
  let o ← load other
  store x { arguments := o.arguments, kwArguments := o.kwArguments, zone := o.zone }
  store other { ← load other with zone := none }
  store other { ← load other with arguments := .emptyArguments }
  store other { ← load other with kwArguments := .emptyKwArguments }

def copyAssign (x other : Nat) : MemoryM Unit := do
  if x = other then
    return
  let zone ← newZone
  let old := (← load x).zone
  store x { ← load x with zone := some zone }
  release old
  store x { ← load x with arguments := ← deepCopy (← load other).arguments zone }
  store x
    { ← load x with kwArguments := ← deepCopy (← load other).kwArguments zone }

def moveAssign (x other : Nat) : MemoryM Unit := do
  if x = other then
    return
  store x { ← load x with arguments := (← load other).arguments }
  store x { ← load x with kwArguments := (← load other).kwArguments }
  let zone := (← load other).zone
  store other { ← load other with zone := none }
  let old := (← load x).zone
  store x { ← load x with zone }
  release old
  store other { ← load other with arguments := .emptyArguments }
  store other { ← load other with kwArguments := .emptyKwArguments }

def destroy (x : Nat) : MemoryM Unit := do
  release (← load x).zone
  modify fun m => m.drop x

def setArguments (x : Nat) (arguments : Root) : MemoryM Unit := do
  store x { ← load x with arguments }

def setKwArguments (x : Nat) (kwArguments : Root) : MemoryM Unit := do
  store x { ← load x with kwArguments }

/-! ## Runs

An operation that makes no sense where it stands, because its variables are
not there or there already, is no part of a program and does nothing. -/

inductive Op : Type where
  | construct (x : Nat)
  | constructFromZone (x : Nat)
  | setArguments (x : Nat) (value : Object)
  | setKwArguments (x : Nat) (value : Object)
  | copyConstruct (x other : Nat)
  | moveConstruct (x other : Nat)
  | copyAssign (x other : Nat)
  | moveAssign (x other : Nat)
  | destroy (x : Nat)

/-- What is set into a result is an object of the zone it was made from. -/
def Op.body : Op → MemoryM Unit
  | .construct x => Ownership.construct x
  | .constructFromZone x => do Ownership.constructFromZone x (← newZone)
  | .setArguments x value => do
      match (← load x).zone with
      | some zone => Ownership.setArguments x (.object zone value)
      | none => pure ()
  | .setKwArguments x value => do
      match (← load x).zone with
      | some zone => Ownership.setKwArguments x (.object zone value)
      | none => pure ()
  | .copyConstruct x other => Ownership.copyConstruct x other
  | .moveConstruct x other => Ownership.moveConstruct x other
  | .copyAssign x other => Ownership.copyAssign x other
  | .moveAssign x other => Ownership.moveAssign x other
  | .destroy x => Ownership.destroy x

/-- The variables an operation needs are there, and the one it makes is not. -/
def Op.scoped (m : Memory) : Op → Bool
  | .construct x | .constructFromZone x => (m.find x).isNone
  | .setArguments x _ | .setKwArguments x _ | .destroy x => (m.find x).isSome
  | .copyConstruct x other | .moveConstruct x other =>
      (m.find x).isNone && (m.find other).isSome
  | .copyAssign x other | .moveAssign x other =>
      (m.find x).isSome && (m.find other).isSome

def next (m : Memory) (op : Op) : Memory :=
  if op.scoped m then (Exec.run op.body m).2 else m

/-! ## What the memory looks like -/

/-- The contents of a root lie in `zone`, or it is one of the static empties. -/
def Root.Within (zone : Option Nat) : Root → Prop
  | .nil => False
  | .emptyArguments | .emptyKwArguments => True
  | .object z _ => zone = some z

def Root.LiesIn (z : Nat) : Root → Prop
  | .object w _ => w = z
  | _ => False

/-- A root still points into `z`. -/
def ResultObject.References (r : ResultObject) (z : Nat) : Prop :=
  r.arguments.LiesIn z ∨ r.kwArguments.LiesIn z

/-- Every root is a static empty or lies in the zone its own result owns, no two
results own one zone, and the zones that are owned are still there. -/
structure Memory.Sound (m : Memory) : Prop where
  arguments : ∀ x r, m.find x = some r → r.arguments.Within r.zone
  kwArguments : ∀ x r, m.find x = some r → r.kwArguments.Within r.zone
  unique : ∀ x y r s z, m.find x = some r → m.find y = some s →
    r.zone = some z → s.zone = some z → x = y
  live : ∀ x r z, m.find x = some r → r.zone = some z → m.Live z

/-- `m'` reads the same as `m`, except at the variables in `touched`. -/
def Memory.Kept (m m' : Memory) (touched : List Nat) : Prop :=
  ∀ v, v ∉ touched → m'.read v = m.read v

/-- What an operation is for, told by what the variables read before (`m`) and
after it (`m'`). -/
def Op.Reads (m m' : Memory) : Op → Prop
  | .construct x | .constructFromZone x => m'.read x = some {} ∧ m.Kept m' [x]
  | .setArguments x value =>
      (∀ r, m.find x = some r → r.zone.isSome →
        m'.read x = some { r.reading with arguments := value }) ∧ m.Kept m' [x]
  | .setKwArguments x value =>
      (∀ r, m.find x = some r → r.zone.isSome →
        m'.read x = some { r.reading with kwArguments := value }) ∧ m.Kept m' [x]
  | .copyConstruct x other | .copyAssign x other =>
      m'.read x = m.read other ∧ m.Kept m' [x]
  | .moveConstruct x other => m'.read x = m.read other ∧ m.Kept m' [x, other] ∧
      ∃ left, m'.read other = some left ∧ left.numberOfArguments = 0 ∧
        left.numberOfKwArguments = 0
  | .moveAssign x other =>
      if x = other then m.Kept m' [] else
      m'.read x = m.read other ∧ m.Kept m' [x, other] ∧
      ∃ left, m'.read other = some left ∧ left.numberOfArguments = 0 ∧
        left.numberOfKwArguments = 0
  | .destroy x => m'.read x = none ∧ m.Kept m' [x]

namespace Memory

variable {m : Memory} {x y : Nat} {r o : ResultObject} {z : Nat}

@[simp] theorem find_put : (m.put x r).find y = if y = x then some r else m.find y :=
  rfl

@[simp] theorem find_drop : (m.drop x).find y = if y = x then none else m.find y :=
  rfl

@[simp] theorem find_grown : m.grown.find x = m.find x := rfl

@[simp] theorem find_released {zone : Option Nat} :
    (m.released zone).find x = m.find x := by
  cases zone <;> rfl

@[simp] theorem live_put : (m.put x r).Live z ↔ m.Live z := Iff.rfl

@[simp] theorem live_drop : (m.drop x).Live z ↔ m.Live z := Iff.rfl

@[simp] theorem zones_put : (m.put x r).zones = m.zones := rfl

@[simp] theorem put_put : (m.put x r).put x o = m.put x o := by
  simp only [put, Memory.mk.injEq, true_and]
  ext1 k
  simp only [Table.find_assign]
  split <;> rfl

theorem put_comm (h : x ≠ y) : (m.put x r).put y o = (m.put y o).put x r := by
  simp only [put, Table.assign_comm _ h]

@[simp] theorem released_put {zone : Option Nat} :
    (m.put x r).released zone = (m.released zone).put x r := by
  cases zone <;> rfl

@[simp] theorem grown_put : (m.put x r).grown = m.grown.put x r := rfl

theorem live_grown_of_live (h : m.Live z) : m.grown.Live z :=
  getElem?_snoc_of_some h

@[simp] theorem live_grown_new : m.grown.Live m.zones.length := by
  simp [Live, grown]

theorem not_live_new : ¬ m.Live m.zones.length := by
  simp [Live]

theorem live_released {zone : Option Nat} (h : m.Live z) (hne : zone ≠ some z) :
    (m.released zone).Live z := by
  cases zone with
  | none => exact h
  | some w =>
      have hw : w ≠ z := fun heq => hne (by rw [heq])
      simpa [Live, released, List.getElem?_set, hw] using h

end Memory

/-! ## Running the statements -/

section Statements

variable {m : Memory} {x : Nat} {r : ResultObject} {z : Nat}

@[simp] theorem run_store : Exec.run (store x r) m = (.ok (), m.put x r) := rfl

@[simp] theorem run_newZone : Exec.run newZone m = (.ok m.zones.length, m.grown) :=
  rfl

theorem run_load (h : m.find x = some r) : Exec.run (load x) m = (.ok r, m) := by
  simp [load, Exec.run_bind, h]

theorem run_access (h : m.Live z) : Exec.run (access z) m = (.ok (), m) := by
  simp [access, Exec.run_bind, h]

theorem run_release {zone : Option Nat} (h : ∀ z, zone = some z → m.Live z) :
    Exec.run (release zone) m = (.ok (), m.released zone) := by
  cases zone with
  | none => rfl
  | some z => simp [release, Exec.run_bind, run_access (h z rfl)]

theorem run_deepCopy {o : Root} {zone : Option Nat} (hwithin : o.Within zone)
    (hlive : ∀ w, zone = some w → m.Live w) (hz : m.Live z) :
    Exec.run (deepCopy o z) m = (.ok (.object z o.value), m) := by
  cases o with
  | nil => exact hwithin.elim
  | emptyArguments | emptyKwArguments =>
      simp only [deepCopy, Exec.run_bind_ok (run_access hz), Exec.run_pure]
  | object w value =>
      simp only [deepCopy, Exec.run_bind_ok (run_access (hlive w hwithin)),
        Exec.run_bind_ok (run_access hz), Exec.run_pure]

end Statements

/-! ## Running the members -/

/-- A deep copy of `o` in the zone `z`. -/
def ResultObject.clone (o : ResultObject) (z : Nat) : ResultObject where
  arguments := .object z o.arguments.value
  kwArguments := .object z o.kwArguments.value
  zone := some z

section Members

variable {m : Memory} {x y : Nat} {r o : ResultObject}

/-- Both roots of a result can be copied as long as its zone is there. -/
theorem Memory.Sound.run_deepCopy (hm : m.Sound) (hy : m.find y = some o)
    (m' : Memory) {n : Nat} (hlive : ∀ w, o.zone = some w → m'.Live w)
    (hn : m'.Live n) :
    Exec.run (deepCopy o.arguments n) m' =
        (.ok (.object n o.arguments.value), m') ∧
      Exec.run (deepCopy o.kwArguments n) m' =
        (.ok (.object n o.kwArguments.value), m') :=
  ⟨Ownership.run_deepCopy (hm.arguments y o hy) hlive hn,
    Ownership.run_deepCopy (hm.kwArguments y o hy) hlive hn⟩

theorem run_copyConstruct (hm : m.Sound) (hy : m.find y = some o) (hne : y ≠ x) :
    Exec.run (copyConstruct x y) m =
      (.ok (), m.grown.put x (o.clone m.zones.length)) := by
  have hlive : ∀ w, o.zone = some w → m.grown.Live w :=
    fun w hw => Memory.live_grown_of_live (hm.live y o w hy hw)
  have hcopy : ∀ s : ResultObject, _ := fun s =>
    hm.run_deepCopy hy (m.grown.put x s) hlive Memory.live_grown_new
  simp [copyConstruct, Exec.run_bind, run_load, hne, hy, hcopy,
    ResultObject.clone]

theorem run_copyAssign (hm : m.Sound) (hx : m.find x = some r)
    (hy : m.find y = some o) (hne : x ≠ y) :
    Exec.run (copyAssign x y) m =
      (.ok (), (m.grown.released r.zone).put x (o.clone m.zones.length)) := by
  have hlive : ∀ w, o.zone = some w → (m.grown.released r.zone).Live w := by
    intro w hw
    apply Memory.live_released (Memory.live_grown_of_live (hm.live y o w hy hw))
    exact fun hr => hne (hm.unique x y r o w hx hy hr hw)
  have hnew : (m.grown.released r.zone).Live m.zones.length := by
    apply Memory.live_released Memory.live_grown_new
    intro hr
    exact Memory.not_live_new (hm.live x r _ hx hr)
  have hcopy : ∀ s : ResultObject, _ := fun s =>
    hm.run_deepCopy hy ((m.grown.released r.zone).put x s) hlive hnew
  have hrelease : ∀ s : ResultObject,
      Exec.run (release r.zone) (m.grown.put x s) =
        (.ok (), (m.grown.put x s).released r.zone) :=
    fun s => run_release fun w hw =>
      Memory.live_grown_of_live (hm.live x r w hx hw)
  simp [copyAssign, Exec.run_bind, run_load, hne, hne.symm, hx, hy, hrelease,
    hcopy, ResultObject.clone]

theorem run_moveConstruct (hy : m.find y = some o) (hne : y ≠ x) :
    Exec.run (moveConstruct x y) m = (.ok (), (m.put x o).put y {}) := by
  simp [moveConstruct, Exec.run_bind, run_load, hne, hy]

theorem run_moveAssign (hm : m.Sound) (hx : m.find x = some r)
    (hy : m.find y = some o) (hne : x ≠ y) :
    Exec.run (moveAssign x y) m =
      (.ok (), ((m.released r.zone).put x o).put y {}) := by
  have hrelease : ∀ s t u : ResultObject,
      Exec.run (release r.zone) (((m.put x s).put y t).put x u) =
        (.ok (), (((m.put x s).put y t).put x u).released r.zone) :=
    fun s t u => run_release fun w hw => hm.live x r w hx hw
  have hover : ∀ (m' : Memory) (s t u v : ResultObject),
      ((((m'.put x s).put y t).put x u).put y v) = (m'.put x u).put y v := by
    intro m' s t u v
    rw [Memory.put_comm (m := m'.put x s) hne.symm, Memory.put_put, Memory.put_put]
  simp [moveAssign, Exec.run_bind, run_load, hne, hne.symm, hx, hy, hrelease, hover]

theorem run_destroy (hm : m.Sound) (hx : m.find x = some r) :
    Exec.run (destroy x) m = (.ok (), (m.released r.zone).drop x) := by
  have hrelease : Exec.run (release r.zone) m = (.ok (), m.released r.zone) :=
    run_release fun w hw => hm.live x r w hx hw
  simp [destroy, Exec.run_bind, run_load, hx, hrelease]

end Members

/-! ## Sound memory -/

namespace Memory

variable {m : Memory} {x y : Nat} {r o : ResultObject}

/-- No result owns `z`. -/
def Unowned (m : Memory) (z : Nat) : Prop :=
  ∀ x r, m.find x = some r → r.zone ≠ some z

theorem sound_empty : ({} : Memory).Sound where
  arguments := nofun
  kwArguments := nofun
  unique := nofun
  live := nofun

/-- The zone of `y` is owned by nobody once `y` has another value. -/
theorem Sound.unowned_put (hm : m.Sound) (hy : m.find y = some o) {z : Nat}
    (hz : o.zone = some z) (hr : r.zone ≠ some z) : (m.put y r).Unowned z := by
  intro x s hx
  rw [find_put] at hx
  split at hx
  · obtain rfl := Option.some.inj hx
    exact hr
  · next hne => exact fun hs => hne (hm.unique x y s o z hx hy hs hz)

/-- **A result may be put anywhere** if its roots are in its own zone, and its
zone is there and nobody else's. -/
theorem Sound.put (hm : m.Sound) (hargs : r.arguments.Within r.zone)
    (hkw : r.kwArguments.Within r.zone)
    (hz : ∀ z, r.zone = some z → m.Live z ∧ ∀ y s, y ≠ x → m.find y = some s →
      s.zone ≠ some z) : (m.put x r).Sound where
  arguments := by
    intro y s hs
    rw [find_put] at hs
    split at hs
    · obtain rfl := Option.some.inj hs
      exact hargs
    · exact hm.arguments y s hs
  kwArguments := by
    intro y s hs
    rw [find_put] at hs
    split at hs
    · obtain rfl := Option.some.inj hs
      exact hkw
    · exact hm.kwArguments y s hs
  unique := by
    intro y y' s s' z hs hs' hsz hsz'
    rw [find_put] at hs hs'
    -- if only one of the two is `x`, the zone would be shared with the new result
    split at hs <;> split at hs'
    · next h h' => rw [h, h']
    · next h' =>
        obtain rfl := Option.some.inj hs
        exact absurd hsz' ((hz z hsz).2 y' s' h' hs')
    · next h _ =>
        obtain rfl := Option.some.inj hs'
        exact absurd hsz ((hz z hsz').2 y s h hs)
    · exact hm.unique y y' s s' z hs hs' hsz hsz'
  live := by
    intro y s z hs hsz
    rw [find_put] at hs
    split at hs
    · obtain rfl := Option.some.inj hs
      exact (hz z hsz).1
    · exact hm.live y s z hs hsz

theorem Sound.put_empty (hm : m.Sound) : (m.put x {}).Sound :=
  hm.put trivial trivial nofun

theorem Sound.drop (hm : m.Sound) : (m.drop x).Sound := by
  have hold : ∀ {y s}, (m.drop x).find y = some s → m.find y = some s := by
    intro y s hs
    rw [find_drop] at hs
    split at hs
    · cases hs
    · exact hs
  exact
    { arguments := fun y s hs => hm.arguments y s (hold hs)
      kwArguments := fun y s hs => hm.kwArguments y s (hold hs)
      unique := fun y y' s s' z hs hs' => hm.unique y y' s s' z (hold hs) (hold hs')
      live := fun y s z hs => hm.live y s z (hold hs) }

theorem Sound.grown (hm : m.Sound) : m.grown.Sound where
  arguments := hm.arguments
  kwArguments := hm.kwArguments
  unique := hm.unique
  live := fun x r z hx hz => live_grown_of_live (hm.live x r z hx hz)

/-- A zone that nobody owns may go. -/
theorem Sound.released (hm : m.Sound) {zone : Option Nat}
    (hz : ∀ z, zone = some z → m.Unowned z) : (m.released zone).Sound := by
  have hold : ∀ {y s}, (m.released zone).find y = some s → m.find y = some s :=
    fun hs => by rwa [find_released] at hs
  exact
    { arguments := fun y s hs => hm.arguments y s (hold hs)
      kwArguments := fun y s hs => hm.kwArguments y s (hold hs)
      unique := fun y y' s s' z hs hs' => hm.unique y y' s s' z (hold hs) (hold hs')
      live := fun y s z hs hsz => live_released (hm.live y s z (hold hs) hsz)
        fun heq => hz z heq y s (hold hs) hsz }

/-- The zone just made is the only one that a result in it needs. -/
theorem Sound.put_grown (hm : m.Sound)
    (hargs : r.arguments.Within (some m.zones.length))
    (hkw : r.kwArguments.Within (some m.zones.length))
    (hr : r.zone = some m.zones.length) : (m.grown.put x r).Sound := by
  rw [← hr] at hargs hkw
  apply hm.grown.put hargs hkw
  intro z hz
  obtain rfl : m.zones.length = z := Option.some.inj (hr.symm.trans hz)
  exact ⟨live_grown_new, fun y s _ hs hsz => not_live_new (hm.live y s _ hs hsz)⟩

theorem Sound.put_clone (hm : m.Sound) :
    (m.grown.put x (o.clone m.zones.length)).Sound :=
  hm.put_grown rfl rfl rfl

/-- Other objects of its own zone may be set into a result. -/
theorem Sound.put_again (hm : m.Sound) (hx : m.find x = some r)
    (hzone : o.zone = r.zone) (hargs : o.arguments.Within r.zone)
    (hkw : o.kwArguments.Within r.zone) : (m.put x o).Sound := by
  rw [← hzone] at hargs hkw
  apply hm.put hargs hkw
  intro z hz
  have hrz : r.zone = some z := hzone.symm.trans hz
  exact ⟨hm.live x r z hx hrz,
    fun y s hne hs hsz => hne (hm.unique y x s r z hs hx hsz hrz)⟩

/-- `x` takes over what `y` holds, and `y` is left empty. -/
theorem Sound.take (hm : m.Sound) (hy : m.find y = some o) (hne : y ≠ x) :
    ((m.put x o).put y {}).Sound := by
  rw [put_comm hne.symm]
  apply hm.put_empty.put (hm.arguments y o hy) (hm.kwArguments y o hy)
  intro z hz
  exact ⟨hm.live y o z hy hz, fun w s _ => hm.unowned_put hy hz (by simp) w s⟩

theorem Unowned.put {z : Nat} (hm : m.Unowned z) (hr : r.zone ≠ some z) :
    (m.put x r).Unowned z := by
  intro y s hs
  rw [find_put] at hs
  split at hs
  · obtain rfl := Option.some.inj hs
    exact hr
  · exact hm y s hs

theorem Sound.unowned_drop (hm : m.Sound) (hx : m.find x = some r) {z : Nat}
    (hz : r.zone = some z) : (m.drop x).Unowned z := by
  intro y s hs
  rw [find_drop] at hs
  split at hs
  · cases hs
  · next hne => exact fun hsz => hne (hm.unique y x s r z hs hx hsz hz)

end Memory

/-! ## Every operation keeps it -/

section Steps

variable {m : Memory} {x y : Nat} {r o : ResultObject}

theorem sound_copyAssign (hm : m.Sound) (hx : m.find x = some r) :
    ((m.grown.released r.zone).put x (o.clone m.zones.length)).Sound := by
  rw [← Memory.released_put]
  refine hm.put_clone.released fun z hz => hm.grown.unowned_put hx hz ?_
  intro heq
  obtain rfl : m.zones.length = z := Option.some.inj heq
  exact Memory.not_live_new (hm.live x r _ hx hz)

theorem sound_moveAssign (hm : m.Sound) (hx : m.find x = some r)
    (hy : m.find y = some o) (hne : x ≠ y) :
    (((m.released r.zone).put x o).put y {}).Sound := by
  rw [← Memory.released_put, ← Memory.released_put]
  apply (hm.take hy hne.symm).released
  intro z hz
  refine (hm.unowned_put hx hz fun hoz => ?_).put (by simp)
  exact hne (hm.unique x y r o z hx hy hz hoz)

theorem sound_destroy (hm : m.Sound) (hx : m.find x = some r) :
    ((m.released r.zone).drop x).Sound := by
  have hswap : (m.released r.zone).drop x = (m.drop x).released r.zone := by
    cases r.zone <;> rfl
  rw [hswap]
  exact hm.drop.released fun z hz => hm.unowned_drop hx hz

end Steps

/-! ## What it does to the readings -/

namespace Memory

variable {m m' : Memory} {x y v z : Nat} {r o : ResultObject}

@[simp] theorem read_put :
    (m.put x r).read v = if v = x then some r.reading else m.read v := by
  simp only [read, find_put]
  split <;> rfl

theorem read_put_self : (m.put x r).read x = some r.reading := by
  rw [read_put, if_pos rfl]

@[simp] theorem read_drop :
    (m.drop x).read v = if v = x then none else m.read v := by
  simp only [read, find_drop]
  split <;> rfl

@[simp] theorem read_grown : m.grown.read v = m.read v := rfl

@[simp] theorem read_released {zone : Option Nat} :
    (m.released zone).read v = m.read v := by
  simp only [read, find_released]

theorem read_of_find (h : m.find x = some r) : m.read x = some r.reading := by
  rw [read, h, Option.map_some]

theorem ne_of_find (hx : m.find x = none) (hy : m.find y = some o) : y ≠ x := by
  rintro rfl
  rw [hx] at hy
  cases hy

theorem kept_put (h : ∀ v, m'.read v = m.read v) : m.Kept (m'.put x r) [x] := by
  intro v hv
  rw [read_put, if_neg (by simpa using hv), h]

theorem kept_put_put (h : ∀ v, m'.read v = m.read v) :
    m.Kept ((m'.put x r).put y o) [x, y] := by
  intro v hv
  obtain ⟨hx, hy⟩ : v ≠ x ∧ v ≠ y := by simpa using hv
  rw [read_put, if_neg hy, read_put, if_neg hx, h]

/-- After a move the target reads what the source did, and the source is
empty. -/
theorem reads_moved (hy : m.find y = some o) (hne : y ≠ x)
    (h : ∀ v, m'.read v = m.read v) :
    ((m'.put x o).put y {}).read x = m.read y ∧
      m.Kept ((m'.put x o).put y {}) [x, y] ∧
      ∃ left, ((m'.put x o).put y {}).read y = some left ∧
        left.numberOfArguments = 0 ∧ left.numberOfKwArguments = 0 := by
  refine ⟨?_, kept_put_put h, {}, ?_, rfl, rfl⟩
  · rw [read_put, if_neg hne.symm, read_put_self, read_of_find hy]
  · exact read_put_self

/-- A deep copy reads what its source does. -/
theorem read_put_clone (hy : m.find y = some o) :
    (m'.put x (o.clone z)).read x = m.read y := by
  rw [read_put_self, read_of_find hy]
  rfl

end Memory

/-- A setter: a result without a zone is left alone, and any other gets the value
of `s` for its zone. -/
theorem Memory.Sound.run_set {m : Memory} {p : MemoryM Unit} {x : Nat}
    {r : ResultObject} (hm : m.Sound) (hx : m.find x = some r)
    (s : Nat → ResultObject) (f : WampCallResult → WampCallResult)
    (hnone : r.zone = none → Exec.run p m = (.ok (), m))
    (hsome : ∀ z, r.zone = some z →
      Exec.run p m = (.ok (), m.put x (s z)) ∧ (m.put x (s z)).Sound)
    (hreading : ∀ z, (s z).reading = f r.reading) :
    ∃ m', Exec.run p m = (.ok (), m') ∧ m'.Sound ∧
      (∀ r', m.find x = some r' → r'.zone.isSome →
        m'.read x = some (f r'.reading)) ∧ m.Kept m' [x] := by
  cases hz : r.zone with
  | none =>
      refine ⟨m, hnone hz, hm, fun r' hx' hr' => ?_, fun v _ => rfl⟩
      obtain rfl := Option.some.inj (hx.symm.trans hx')
      rw [hz] at hr'
      cases hr'
  | some z =>
      obtain ⟨hrun, hsound⟩ := hsome z hz
      refine ⟨_, hrun, hsound, fun r' hx' _ => ?_, Memory.kept_put fun v => rfl⟩
      obtain rfl := Option.some.inj (hx.symm.trans hx')
      rw [Memory.read_put_self, hreading]

/-- **One operation**: it runs, leaves sound memory, and does to the readings
what it is for. -/
theorem Memory.Sound.run_body {m : Memory} (hm : m.Sound) {op : Op}
    (hs : op.scoped m) :
    ∃ m', Exec.run op.body m = (.ok (), m') ∧ m'.Sound ∧ op.Reads m m' := by
  cases op with
  | construct x =>
      exact ⟨_, rfl, hm.put_empty, Memory.read_put_self,
        Memory.kept_put fun v => rfl⟩
  | constructFromZone x =>
      exact ⟨m.grown.put x { zone := some m.zones.length }, rfl,
        hm.put_grown trivial trivial rfl, Memory.read_put_self,
        Memory.kept_put fun v => rfl⟩
  | setArguments x value =>
      obtain ⟨r, hx⟩ := Option.isSome_iff_exists.mp hs
      refine hm.run_set hx (fun z => { r with arguments := .object z value })
        (fun o => { o with arguments := value }) (fun hz => ?_) (fun z hz => ?_)
        fun _ => rfl
      · simp [Op.body, Exec.run_bind, run_load hx, hz]
      · refine ⟨?_, hm.put_again hx rfl hz (hm.kwArguments x r hx)⟩
        simp [Op.body, setArguments, Exec.run_bind, run_load hx, hz]
  | setKwArguments x value =>
      obtain ⟨r, hx⟩ := Option.isSome_iff_exists.mp hs
      refine hm.run_set hx (fun z => { r with kwArguments := .object z value })
        (fun o => { o with kwArguments := value }) (fun hz => ?_) (fun z hz => ?_)
        fun _ => rfl
      · simp [Op.body, Exec.run_bind, run_load hx, hz]
      · refine ⟨?_, hm.put_again hx rfl (hm.arguments x r hx) hz⟩
        simp [Op.body, setKwArguments, Exec.run_bind, run_load hx, hz]
  | copyConstruct x y =>
      simp only [Op.scoped, Bool.and_eq_true, Option.isNone_iff_eq_none] at hs
      obtain ⟨o, hy⟩ := Option.isSome_iff_exists.mp hs.2
      exact ⟨_, run_copyConstruct hm hy (Memory.ne_of_find hs.1 hy), hm.put_clone,
        Memory.read_put_clone hy, Memory.kept_put fun v => rfl⟩
  | moveConstruct x y =>
      simp only [Op.scoped, Bool.and_eq_true, Option.isNone_iff_eq_none] at hs
      obtain ⟨o, hy⟩ := Option.isSome_iff_exists.mp hs.2
      have hne : y ≠ x := Memory.ne_of_find hs.1 hy
      exact ⟨_, run_moveConstruct hy hne, hm.take hy hne,
        Memory.reads_moved hy hne fun v => rfl⟩
  | copyAssign x y =>
      simp only [Op.scoped, Bool.and_eq_true] at hs
      obtain ⟨r, hx⟩ := Option.isSome_iff_exists.mp hs.1
      obtain ⟨o, hy⟩ := Option.isSome_iff_exists.mp hs.2
      by_cases hne : x = y
      · subst hne
        refine ⟨m, ?_, hm, rfl, fun v _ => rfl⟩
        simp [Op.body, copyAssign]
      · refine ⟨_, run_copyAssign hm hx hy hne, sound_copyAssign hm hx,
          Memory.read_put_clone hy, Memory.kept_put fun v => ?_⟩
        rw [Memory.read_released, Memory.read_grown]
  | moveAssign x y =>
      simp only [Op.scoped, Bool.and_eq_true] at hs
      obtain ⟨r, hx⟩ := Option.isSome_iff_exists.mp hs.1
      obtain ⟨o, hy⟩ := Option.isSome_iff_exists.mp hs.2
      by_cases hne : x = y
      · refine ⟨m, ?_, hm, ?_⟩
        · simp [Op.body, moveAssign, hne]
        · simp only [Op.Reads, if_pos hne]
          exact fun v _ => rfl
      · refine ⟨_, run_moveAssign hm hx hy hne, sound_moveAssign hm hx hy hne, ?_⟩
        simp only [Op.Reads, if_neg hne]
        exact Memory.reads_moved hy (Ne.symm hne) fun v => Memory.read_released
  | destroy x =>
      obtain ⟨r, hx⟩ := Option.isSome_iff_exists.mp hs
      refine ⟨_, run_destroy hm hx, sound_destroy hm hx, ?_, fun v hv => ?_⟩
      · rw [Memory.read_drop, if_pos rfl]
      · rw [Memory.read_drop, if_neg (by simpa using hv), Memory.read_released]

/-! ## Whole runs -/

theorem Memory.Sound.step {m : Memory} (hm : m.Sound) (op : Op) :
    (next m op).Sound := by
  unfold next
  split
  · next hs =>
      obtain ⟨m', hrun, hm', -⟩ := hm.run_body hs
      rwa [hrun]
  · exact hm

theorem Memory.Sound.of_run (ops : List Op) :
    (Machine.run next ({} : Memory) ops).Sound :=
  Machine.Reachable.invariant ⟨ops, rfl⟩ Memory.sound_empty fun _ op hm => hm.step op

/-- What a root points into is the zone of its own result. -/
theorem Memory.Sound.live_of_references {m : Memory} (hm : m.Sound) {x z : Nat}
    {r : ResultObject} (hx : m.find x = some r) (h : r.References z) : m.Live z := by
  have hzone : ∀ root : Root, root.Within r.zone → root.LiesIn z →
      r.zone = some z := by
    intro root hwithin hlies
    cases root with
    | nil | emptyArguments | emptyKwArguments => exact hlies.elim
    | object w value => exact hlies ▸ hwithin
  apply hm.live x r z hx
  rcases h with h | h
  · exact hzone _ (hm.arguments x r hx) h
  · exact hzone _ (hm.kwArguments x r hx) h

/-- `process_call_result` makes its result like this: it reads as the value that
the promise of the call gets. -/
theorem read_processCallResult {m : Memory} {x : Nat} (hx : m.find x = none)
    (arguments kwArguments : Object) :
    (Machine.run next m [.constructFromZone x, .setArguments x arguments,
      .setKwArguments x kwArguments]).read x = some { arguments, kwArguments } := by
  simp [Machine.run, next, Op.scoped, Op.body, hx, Exec.run_bind,
    constructFromZone, setArguments, setKwArguments, run_load,
    ResultObject.reading, Root.value]

/-- **Ownership.** In every state of every run the roots of a result are static
empties or lie in the zone that it owns, no zone has two owners, and no zone is
gone that a root still points into. Every operation of the run is free of
undefined behaviour and reads as it should: a copy as its source, a move as its
source did, which is left with no arguments at all. -/
theorem callResults_owned (ops : List Op) :
    Machine.Everywhere next (fun m => m.Sound ∧
      ∀ x r z, m.find x = some r → r.References z → m.Live z) {} ops ∧
    Machine.EachStep next (fun m op => op.scoped m →
      (Exec.run op.body m).1 = .ok () ∧ op.Reads m (next m op)) {} ops := by
  constructor
  · intro pre _
    have hm := Memory.Sound.of_run pre
    exact ⟨hm, fun x r z hx h => hm.live_of_references hx h⟩
  · intro pre op _ hs
    obtain ⟨m', hrun, -, hreads⟩ := (Memory.Sound.of_run pre).run_body hs
    have hnext : next (Machine.run next {} pre) op = m' := by
      rw [next, if_pos hs, hrun]
    rw [hnext, hrun]
    exact ⟨rfl, hreads⟩

end Ownership

end Autobahn
