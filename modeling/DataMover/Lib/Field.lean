import DataMover.Lib.Memory

/-!
# Fields of objects in memory

A packed object is a base address; each of its fields is an offset and a width
inside the object.  Reading and writing a field is a little-endian load or store
at `base + offset`, and the compound assignments `+=` and `-=` wrap at the
field's width.

## Main results

* `get_set_self`, `get_set_of_apart` — two fields of one object.
* `get_set_elsewhere` — fields of two objects that do not overlap.
* `get_addAssign_self` — the compound assignment, when it does not wrap.
* `get_assignAll_of_mem`, `get_assignAll_of_apart` — several assignments, read back.
-/

namespace ByteMemory

/-- A field: its offset in the object and its width in bytes. -/
structure Field where
  offset : ℕ
  width : ℕ
  deriving DecidableEq, Repr

namespace Field

/-- The fields share no byte. -/
def Apart (f g : Field) : Prop := f.offset + f.width ≤ g.offset ∨ g.offset + g.width ≤ f.offset

/-- The field lies in the first `size` bytes of its object. -/
def Within (f : Field) (size : ℕ) : Prop := f.offset + f.width ≤ size

instance (f g : Field) : Decidable (f.Apart g) := inferInstanceAs (Decidable (_ ∨ _))

instance (f : Field) (size : ℕ) : Decidable (f.Within size) := inferInstanceAs (Decidable (_ ≤ _))

/-- Read the field of the object at `base`. -/
def get (f : Field) (m : Memory) (base : ℕ) : ℕ := load m (base + f.offset) f.width

/-- Write the field of the object at `base`. -/
def set (f : Field) (m : Memory) (base v : ℕ) : Memory := store m (base + f.offset) f.width v

/-- `field += v`, wrapping at the field's width. -/
def addAssign (f : Field) (m : Memory) (base v : ℕ) : Memory := f.set m base (f.get m base + v)

/-- `field -= v`, wrapping at the field's width. -/
def subAssign (f : Field) (m : Memory) (base v : ℕ) : Memory :=
  f.set m base (f.get m base + (2 ^ (8 * f.width) - v % 2 ^ (8 * f.width)))

theorem get_lt (f : Field) (m : Memory) (base : ℕ) : f.get m base < 2 ^ (8 * f.width) :=
  load_lt m _ _

/-! ### One object -/

@[simp] theorem get_set_self (f : Field) (m : Memory) (base v : ℕ) :
    f.get (f.set m base v) base = v % 2 ^ (8 * f.width) :=
  load_store_self m _ _ _

theorem get_set_self_of_lt {f : Field} {v : ℕ} (m : Memory) (base : ℕ)
    (hv : v < 2 ^ (8 * f.width)) : f.get (f.set m base v) base = v := by
  rw [get_set_self, Nat.mod_eq_of_lt hv]

theorem get_set_of_apart {f g : Field} (h : f.Apart g) (m : Memory) (base v : ℕ) :
    f.get (g.set m base v) base = f.get m base := by
  apply load_store_of_apart
  unfold Apart at h
  unfold Region.Apart
  simp only
  omega

theorem get_addAssign_self {f : Field} {m : Memory} {base v : ℕ}
    (h : f.get m base + v < 2 ^ (8 * f.width)) :
    f.get (f.addAssign m base v) base = f.get m base + v :=
  get_set_self_of_lt m base h

theorem get_addAssign_of_apart {f g : Field} (h : f.Apart g) (m : Memory) (base v : ℕ) :
    f.get (g.addAssign m base v) base = f.get m base :=
  get_set_of_apart h m base _

theorem get_subAssign_of_apart {f g : Field} (h : f.Apart g) (m : Memory) (base v : ℕ) :
    f.get (g.subAssign m base v) base = f.get m base :=
  get_set_of_apart h m base _

/-! ### Two objects -/

/-- Writing a field changes bytes of its own object only. -/
theorem set_eqOn {f : Field} {size : ℕ} (hf : f.Within size) (m : Memory) (base v : ℕ) :
    Set.EqOn (f.set m base v) m (Region.addrs ⟨base, size⟩)ᶜ := by
  intro x hx
  unfold Within at hf
  apply store_apply_of_notMem
  rw [Set.mem_compl_iff, Region.mem_addrs] at hx
  simp only at hx
  omega

/-- A field is read from its own object. -/
theorem get_congr {f : Field} {size : ℕ} (hf : f.Within size) {m m' : Memory} {base : ℕ}
    (h : Set.EqOn m m' (Region.addrs ⟨base, size⟩)) : f.get m base = f.get m' base := by
  unfold Within at hf
  exact load_eq_of_eqOn h (by simp) (by simp only; omega)

/-- Two objects that do not overlap: a field of one does not see a write to the
other. -/
theorem get_set_elsewhere {f g : Field} {b c s t : ℕ} (h : Region.Apart ⟨c, t⟩ ⟨b, s⟩)
    (hf : f.Within s) (hg : g.Within t) (m : Memory) (v : ℕ) :
    f.get (g.set m c v) b = f.get m b := by
  refine get_congr hf fun x hx => set_eqOn hg m c v ?_
  exact h.symm.notMem hx

theorem get_addAssign_elsewhere {f g : Field} {b c s t : ℕ} (h : Region.Apart ⟨c, t⟩ ⟨b, s⟩)
    (hf : f.Within s) (hg : g.Within t) (m : Memory) (v : ℕ) :
    f.get (g.addAssign m c v) b = f.get m b :=
  get_set_elsewhere h hf hg m _

end Field

/-! ### Several assignments -/

/-- A value for a field that fits the field. -/
structure Assignment where
  field : Field
  value : ℕ
  fits : value < 2 ^ (8 * field.width)

/-- A value of the width of the field, for the field. -/
def Field.assign (f : Field) {w : ℕ} (v : BitVec w) (h : w = 8 * f.width) : Assignment where
  field := f
  value := v.toNat
  fits := h ▸ v.isLt

/-- The assignments of a list, in order, to the fields of the object at `base`. -/
def assignAll (m : Memory) (base : ℕ) (l : List Assignment) : Memory :=
  l.foldl (fun m a => a.field.set m base a.value) m

@[simp] theorem assignAll_nil (m : Memory) (base : ℕ) : assignAll m base [] = m := rfl

@[simp] theorem assignAll_cons (m : Memory) (base : ℕ) (a : Assignment) (l : List Assignment) :
    assignAll m base (a :: l) = assignAll (a.field.set m base a.value) base l := rfl

/-- A field none of the assignments touches. -/
theorem get_assignAll_of_apart {f : Field} {l : List Assignment} {base : ℕ}
    (h : ∀ g ∈ l.map Assignment.field, f.Apart g) (m : Memory) :
    f.get (assignAll m base l) base = f.get m base := by
  induction l generalizing m with
  | nil => rfl
  | cons a l ih =>
    rw [List.map_cons, List.forall_mem_cons] at h
    rw [assignAll_cons, ih h.2, Field.get_set_of_apart h.1]

/-- **Several assignments, read back**: fields that do not overlap keep their values. -/
theorem get_assignAll_of_mem {l : List Assignment} {base : ℕ}
    (hpair : (l.map Assignment.field).Pairwise Field.Apart) (m : Memory) :
    ∀ a ∈ l, a.field.get (assignAll m base l) base = a.value := by
  induction l generalizing m with
  | nil => simp
  | cons b l ih =>
    rw [List.map_cons, List.pairwise_cons] at hpair
    rw [List.forall_mem_cons, assignAll_cons]
    refine ⟨?_, ih hpair.2 _⟩
    rw [get_assignAll_of_apart hpair.1, Field.get_set_self_of_lt _ _ b.fits]

/-- A local copy of the `n` bytes at `a`, as an object of its own at address 0. -/
def clone (m : Memory) (a n : ℕ) : Memory := fun i => if i < n then m (a + i) else 0

theorem get_clone {f : Field} {n : ℕ} (hf : f.Within n) (m : Memory) (a : ℕ) :
    f.get (clone m a n) 0 = f.get m a := by
  refine load_congr fun i hi => ?_
  unfold Field.Within at hf
  rw [clone, if_pos (by omega)]
  congr 1; omega

/-- The first `n` bytes of an object at address 0, written to `a`. -/
def paste (m : Memory) (a n : ℕ) (d : Memory) : Memory := fun x =>
  if a ≤ x ∧ x < a + n then d (x - a) else m x

theorem paste_apply_of_lt {m d : Memory} {a n i : ℕ} (h : i < n) : paste m a n d (a + i) = d i := by
  rw [paste, if_pos (by omega), Nat.add_sub_cancel_left]

theorem paste_apply_of_notMem {m d : Memory} {a n x : ℕ} (h : x ∉ Region.addrs ⟨a, n⟩) :
    paste m a n d x = m x := by
  rw [Region.mem_addrs] at h
  rw [paste, if_neg h]

end ByteMemory
