import KbmOs.Lib.Bytes
/-!
# Packed records in memory

A packed record is a set of fields at fixed offsets, each of some bytes in
little-endian order. Where the fields are apart it does not matter in which
order they are written: each is read back as it was written, and no byte
outside of them changes.
-/

namespace ByteMemory

/-- Memory after the low `n` bytes of `v` are written at `a`. -/
def storeBytes (m : Mem) (a v n : ℕ) : Mem := fun x =>
  if a ≤ x ∧ x < a + n then BitVec.ofNat 8 (v / 2 ^ (8 * (x - a))) else m x

/-- A field of a record, and what is written to it. -/
structure PackedField where
  offset : ℕ
  width : ℕ
  value : ℕ

/-- Memory after the fields of the record at `a` are written, in order. -/
def storeFields (m : Mem) (a : ℕ) (fields : List PackedField) : Mem :=
  fields.foldl (fun m f => storeBytes m (a + f.offset) f.value f.width) m

variable {m : Mem} {a v n x : ℕ} {f g : PackedField} {fields : List PackedField}

theorem storeBytes_of_apart (h : x < a ∨ a + n ≤ x) : storeBytes m a v n x = m x := by
  unfold storeBytes
  rw [if_neg (by omega)]

/-- **What is written is what is read**, up to the width. -/
theorem loadBytes_storeBytes : loadBytes (storeBytes m a v n) a n = v % 2 ^ (8 * n) := by
  refine loadBytes_eq_mod n a v fun i hi => ?_
  unfold storeBytes
  rw [if_pos (by omega), Nat.add_sub_cancel_left, BitVec.toNat_ofNat]

/-- The fields do not meet. -/
def PackedField.Apart (f g : PackedField) : Prop :=
  f.offset + f.width ≤ g.offset ∨ g.offset + g.width ≤ f.offset

instance (f g : PackedField) : Decidable (f.Apart g) := inferInstanceAs (Decidable (_ ∨ _))

/-- **Bytes outside of the fields are left alone.** -/
theorem storeFields_of_apart (h : ∀ f ∈ fields, x < a + f.offset ∨ a + f.offset + f.width ≤ x) :
    storeFields m a fields x = m x := by
  induction fields generalizing m with
  | nil => rfl
  | cons f fields ih =>
    refine (ih fun g hg => h g (List.mem_cons_of_mem _ hg)).trans ?_
    exact storeBytes_of_apart (h f List.mem_cons_self)

/-- A field apart from those that are written is kept. -/
theorem loadBytes_storeFields_of_apart (h : ∀ g ∈ fields, g.Apart f) :
    loadBytes (storeFields m a fields) (a + f.offset) f.width =
      loadBytes m (a + f.offset) f.width := by
  refine loadBytes_congr _ _ fun x h1 h2 => storeFields_of_apart fun g hg => ?_
  have hapart := h g hg
  unfold PackedField.Apart at hapart
  omega

/-- **Every field is read back**, whatever the order they were written in. -/
theorem loadBytes_storeFields (hapart : fields.Pairwise PackedField.Apart) (hf : f ∈ fields) :
    loadBytes (storeFields m a fields) (a + f.offset) f.width = f.value % 2 ^ (8 * f.width) := by
  induction fields generalizing m with
  | nil => cases hf
  | cons g fields ih =>
    obtain ⟨hg, hrest⟩ := List.pairwise_cons.1 hapart
    rcases List.mem_cons.1 hf with rfl | hf
    · -- the rest of the record keeps what was written first
      have hkept := loadBytes_storeFields_of_apart
        (m := storeBytes m (a + f.offset) f.value f.width) (a := a) fun g' hg' => (hg g' hg').symm
      exact hkept.trans loadBytes_storeBytes
    · exact ih hrest hf

end ByteMemory
