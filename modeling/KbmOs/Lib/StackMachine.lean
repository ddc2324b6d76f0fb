import KbmOs.Lib.Bytes
import Mathlib.Logic.Function.Basic
import Mathlib.Logic.Relation
/-!
# Registers, a stack, and calls

The part of x86-64 that saves registers around a call: pushes and pops, moves
between registers, masks, the direction flag, `call` of what is given from
outside and `iretq`, where a machine stops. The stack is in a byte memory
whose addresses wrap. What is pushed in one order and popped in the other is
as it was, whatever has happened in between outside the pushed bytes
(`popAll_pushAll`).
-/

namespace StackMachine

open ByteMemory

abbrev Qword := BitVec 64

inductive Register
  | rax | rbx | rcx | rdx | rsi | rdi | rbp | rsp
  | r8 | r9 | r10 | r11 | r12 | r13 | r14 | r15
deriving DecidableEq

structure Cpu where
  registers : Register → Qword
  directionFlag : Bool
  memory : Qword → BitVec 8

/-! ## Words in memory -/

/-- The memory from an address on. -/
def viewFrom (memory : Qword → BitVec 8) (a : Qword) : Mem := fun i => memory (a + BitVec.ofNat 64 i)

def loadWord (memory : Qword → BitVec 8) (a : Qword) : Qword :=
  BitVec.ofNat 64 (load64 (viewFrom memory a) 0)

def storeWord (memory : Qword → BitVec 8) (a v : Qword) : Qword → BitVec 8 := fun x =>
  if (x - a).toNat < 8 then BitVec.ofNat 8 (v.toNat / 2 ^ (8 * (x - a).toNat)) else memory x

/-! ## Instructions -/

def Cpu.set (m : Cpu) (r : Register) (v : Qword) : Cpu :=
  { m with registers := Function.update m.registers r v }

def Cpu.push (m : Cpu) (v : Qword) : Cpu :=
  { m.set .rsp (m.registers .rsp - 8) with
    memory := storeWord m.memory (m.registers .rsp - 8) v }

/-- The word on top of the stack. -/
def Cpu.top (m : Cpu) : Qword := loadWord m.memory (m.registers .rsp)

def Cpu.drop (m : Cpu) : Cpu := m.set .rsp (m.registers .rsp + 8)

/-- What goes on to the instruction behind it. -/
inductive Op
  | push (r : Register)
  | pop (r : Register)
  | cld
  | mov (dst src : Register)
  | and (dst : Register) (mask : Qword)
deriving DecidableEq

def Op.apply (m : Cpu) : Op → Cpu
  | .push r => m.push (m.registers r)
  | .pop r => m.drop.set r m.top
  | .cld => { m with directionFlag := false }
  | .mov dst src => m.set dst (m.registers src)
  | .and dst mask => m.set dst (m.registers dst &&& mask)

inductive Instruction (τ : Type)
  | op (op : Op)
  | call (target : τ)
  | iretq

/-- What stands at an address, and the address behind it. -/
abbrev Code (τ : Type) := Qword → Option (Instruction τ × Qword)

variable {τ : Type}

/-- One instruction. A call comes back through the word that is on top of
the stack when the callee is done. -/
def step (code : Code τ) (callee : τ → Cpu → Cpu) (c : Qword × Cpu) :
    Option (Qword × Cpu) :=
  match code c.1 with
  | some (.op op, next) => some (next, op.apply c.2)
  | some (.call target, next) =>
    some ((callee target (c.2.push next)).top, (callee target (c.2.push next)).drop)
  | some (.iretq, _) => none
  | none => none

def Executes (code : Code τ) (callee : τ → Cpu → Cpu) : Qword × Cpu → Qword × Cpu → Prop :=
  Relation.ReflTransGen fun c c' => step code callee c = some c'

/-- The listing stands at the address, one instruction behind the other. -/
def Laid (code : Code τ) : Qword → List (Instruction τ) → Prop
  | _, [] => True
  | a, instruction :: listing => ∃ next, code a = some (instruction, next) ∧ Laid code next listing

variable {memory memory' : Qword → BitVec 8} {a b c v x : Qword} {m m' : Cpu} {r r' : Register}
variable {rs : List Register}

/-! ## Distances -/

theorem toNat_sub_add (h : (a - b).toNat + (b - c).toNat < 2 ^ 64) :
    (a - c).toNat = (a - b).toNat + (b - c).toNat := by
  have hsum : a - c = (a - b) + (b - c) := by bv_omega
  rw [hsum, BitVec.toNat_add, Nat.mod_eq_of_lt h]

theorem loadWord_congr (h : ∀ x, (x - a).toNat < 8 → memory' x = memory x) :
    loadWord memory' a = loadWord memory a := by
  refine congrArg (BitVec.ofNat 64) (load64_congr fun y _ hy => h _ ?_)
  rw [BitVec.add_comm, BitVec.add_sub_cancel, BitVec.toNat_ofNat]
  omega

theorem storeWord_outside (h : 8 ≤ (x - a).toNat) : storeWord memory a v x = memory x :=
  if_neg (Nat.not_lt_of_le h)

theorem loadWord_storeWord (memory : Qword → BitVec 8) (a v : Qword) :
    loadWord (storeWord memory a v) a = v := by
  have hbytes : load64 (viewFrom (storeWord memory a v) a) 0 = v.toNat % 2 ^ (8 * 8) := by
    refine loadBytes_eq_mod 8 0 v.toNat fun i hi => ?_
    have hoffset : (a + BitVec.ofNat 64 (0 + i) - a).toNat = i := by
      rw [BitVec.add_comm, BitVec.add_sub_cancel, BitVec.toNat_ofNat]
      omega
    unfold viewFrom storeWord
    rw [hoffset, if_pos hi, BitVec.toNat_ofNat]
  unfold loadWord
  rw [hbytes]
  refine BitVec.eq_of_toNat_eq ?_
  rw [BitVec.toNat_ofNat, Nat.mod_mod, Nat.mod_eq_of_lt v.isLt]

/-! ## Registers and the stack -/

@[simp] theorem Cpu.set_same : (m.set r v).registers r = v := Function.update_self ..

theorem Cpu.set_of_ne (h : r' ≠ r) : (m.set r v).registers r' = m.registers r' :=
  Function.update_of_ne h ..

theorem Cpu.push_registers :
    (m.push v).registers = (m.set .rsp (m.registers .rsp - 8)).registers := rfl

@[simp] theorem Cpu.push_rsp : (m.push v).registers .rsp = m.registers .rsp - 8 := by
  rw [Cpu.push_registers, Cpu.set_same]

theorem Cpu.push_of_ne (h : r ≠ .rsp) : (m.push v).registers r = m.registers r := by
  rw [Cpu.push_registers, Cpu.set_of_ne h]

@[simp] theorem Cpu.drop_rsp : m.drop.registers .rsp = m.registers .rsp + 8 := by
  rw [Cpu.drop, Cpu.set_same]

theorem Cpu.drop_of_ne (h : r ≠ .rsp) : m.drop.registers r = m.registers r := by
  rw [Cpu.drop, Cpu.set_of_ne h]

/-- A push changes the eight bytes below the stack and no others. -/
theorem Cpu.push_memory (h : (x - m.registers .rsp).toNat + 8 < 2 ^ 64) :
    (m.push v).memory x = m.memory x := by
  refine storeWord_outside ?_
  have hdistance := toNat_sub_add (show (x - m.registers .rsp).toNat +
    (m.registers .rsp - (m.registers .rsp - 8)).toNat < 2 ^ 64 by bv_omega)
  rw [hdistance]
  bv_omega

@[simp] theorem Cpu.push_top : (m.push v).top = v := by
  unfold Cpu.top
  rw [Cpu.push_rsp]
  exact loadWord_storeWord _ _ _

/-- The machine after operations in order. -/
def runOps (m : Cpu) (ops : List Op) : Cpu := ops.foldl Op.apply m

/-! ## Pushing and popping -/

/-- Registers pushed in order. -/
def pushAll (m : Cpu) (rs : List Register) : Cpu := runOps m (rs.map .push)

def popAll (m : Cpu) (rs : List Register) : Cpu := runOps m (rs.map .pop)

@[simp] theorem pushAll_nil : pushAll m [] = m := rfl

theorem pushAll_cons : pushAll m (r :: rs) = pushAll (m.push (m.registers r)) rs := rfl

theorem popAll_concat : popAll m (rs ++ [r]) =
    ((popAll m rs).drop).set r (popAll m rs).top := by
  unfold popAll runOps
  rw [List.map_append, List.foldl_append]
  rfl

theorem pushAll_of_ne (h : r ≠ .rsp) : (pushAll m rs).registers r = m.registers r := by
  induction rs generalizing m with
  | nil => rfl
  | cons pushed rs ih => rw [pushAll_cons, ih, Cpu.push_of_ne h]

theorem pushAll_rsp : (pushAll m rs).registers .rsp =
    m.registers .rsp - BitVec.ofNat 64 (8 * rs.length) := by
  induction rs generalizing m with
  | nil => simp
  | cons pushed rs ih =>
    rw [pushAll_cons, ih, Cpu.push_rsp, List.length_cons]
    bv_omega

/-- **What stands above the stack stays there.** -/
theorem pushAll_memory (h : (x - m.registers .rsp).toNat + 8 * rs.length < 2 ^ 64) :
    (pushAll m rs).memory x = m.memory x := by
  induction rs generalizing m with
  | nil => rfl
  | cons pushed rs ih =>
    rw [List.length_cons] at h
    have hpush : (x - (m.push (m.registers pushed)).registers .rsp).toNat =
        (x - m.registers .rsp).toNat + 8 := by
      rw [Cpu.push_rsp]
      bv_omega
    rw [pushAll_cons, ih (by omega), Cpu.push_memory (by omega)]

/-- The word that was pushed first is on top when the others are popped. -/
theorem loadWord_first (hlength : 8 * (rs.length + 1) < 2 ^ 64)
    (hmemory : ∀ x, (x - (pushAll (m.push v) rs).registers .rsp).toNat < 8 * (rs.length + 1) →
      memory x = (pushAll (m.push v) rs).memory x) :
    loadWord memory ((m.push v).registers .rsp) = v := by
  have hload : loadWord memory ((m.push v).registers .rsp) =
      loadWord (m.push v).memory ((m.push v).registers .rsp) := by
    refine loadWord_congr fun x hx => ?_
    have hshift : (x - (pushAll (m.push v) rs).registers .rsp).toNat =
        (x - (m.push v).registers .rsp).toNat + 8 * rs.length := by
      rw [pushAll_rsp]
      bv_omega
    rw [hmemory x (by omega), pushAll_memory (by omega)]
  rw [hload]
  exact Cpu.push_top

/-- **What is pushed is popped**, if the pushed bytes and the stack pointer
are then as they were: the registers that were pushed have their values
again, and the others keep what they have since got. -/
theorem popAll_pushAll (hrsp : .rsp ∉ rs) (hlength : 8 * rs.length < 2 ^ 64)
    (hstack : m'.registers .rsp = (pushAll m rs).registers .rsp)
    (hmemory : ∀ x, (x - (pushAll m rs).registers .rsp).toNat < 8 * rs.length →
      m'.memory x = (pushAll m rs).memory x) :
    (popAll m' rs.reverse).memory = m'.memory ∧
      (popAll m' rs.reverse).registers .rsp = m.registers .rsp ∧
      (∀ r ∈ rs, (popAll m' rs.reverse).registers r = m.registers r) ∧
      ∀ r, r ∉ rs → r ≠ .rsp → (popAll m' rs.reverse).registers r = m'.registers r := by
  induction rs generalizing m with
  | nil => exact ⟨rfl, hstack, fun r hr => absurd hr List.not_mem_nil, fun r _ _ => rfl⟩
  | cons r rs ih =>
    have hne : r ≠ .rsp := by
      rintro rfl
      exact hrsp List.mem_cons_self
    have hrs : .rsp ∉ rs := fun h => hrsp (List.mem_cons_of_mem r h)
    rw [List.length_cons] at hlength hmemory
    rw [pushAll_cons] at hstack hmemory
    obtain ⟨hsame, htop, hsaved, hkept⟩ := ih hrs (by omega) hstack
      fun x hx => hmemory x (by omega)
    have hvalue : (popAll m' rs.reverse).top = m.registers r := by
      unfold Cpu.top
      rw [hsame, htop]
      exact loadWord_first hlength hmemory
    rw [List.reverse_cons, popAll_concat, hvalue]
    refine ⟨hsame, ?_, ?_, ?_⟩
    · rw [Cpu.set_of_ne (Ne.symm hne), Cpu.drop_rsp, htop, Cpu.push_rsp]
      bv_omega
    · intro r' hr'
      by_cases hsame' : r' = r
      · rw [hsame', Cpu.set_same]
      · have hmem := (List.mem_cons.1 hr').resolve_left hsame'
        have hne' : r' ≠ .rsp := fun h => hrs (h ▸ hmem)
        rw [Cpu.set_of_ne hsame', Cpu.drop_of_ne hne', hsaved r' hmem, Cpu.push_of_ne hne']
    · intro r' hr' hne'
      have hother : r' ≠ r := fun h => hr' (h ▸ List.mem_cons_self)
      rw [Cpu.set_of_ne hother, Cpu.drop_of_ne hne',
        hkept r' (fun h => hr' (List.mem_cons_of_mem r h)) hne']

/-! ## Rounding the stack pointer -/

theorem toNat_and_neg_sixteen (x : Qword) : (x &&& -16).toNat = x.toNat / 2 ^ 4 * 2 ^ 4 := by
  have hmask : (-16 : Qword).toNat = 2 ^ 64 - 2 ^ 4 := rfl
  rw [BitVec.toNat_and, hmask, and_highMask (by omega) x.isLt]

theorem dvd_and_neg_sixteen (x : Qword) : 16 ∣ (x &&& -16).toNat := by
  rw [toNat_and_neg_sixteen]
  exact Nat.dvd_mul_left _ _

/-- The padding. -/
theorem sub_and_neg_sixteen_lt (x : Qword) : (x - (x &&& -16)).toNat < 16 := by
  have hround := toNat_and_neg_sixteen x
  bv_omega

/-! ## Listings -/

variable {code : Code τ} {callee : τ → Cpu → Cpu} {listing rest : List (Instruction τ)}
variable {ops : List Op} {target : τ} {next : Qword}

/-- **A block of operations** is run to its end. -/
theorem executes_ops (hlaid : Laid code a (ops.map .op ++ rest)) :
    ∃ next, Executes code callee (a, m) (next, runOps m ops) ∧ Laid code next rest := by
  induction ops generalizing a m with
  | nil => exact ⟨a, .refl, hlaid⟩
  | cons op ops ih =>
    obtain ⟨next, hcode, hops⟩ := hlaid
    obtain ⟨last, hreaches, hrest⟩ := ih (m := op.apply m) hops
    refine ⟨last, .head ?_ hreaches, hrest⟩
    unfold step
    rw [hcode]

/-- **A call comes back** behind itself, if the callee leaves the word it
was called with on top of the stack. -/
theorem executes_call (hcode : code a = some (.call target, next))
    (hreturn : (callee target (m.push next)).top = next) :
    Executes code callee (a, m) (next, (callee target (m.push next)).drop) := by
  refine .single ?_
  unfold step
  rw [hcode]
  change some ((callee target (m.push next)).top, _) = _
  rw [hreturn]

/-- A listing with an address for each instruction. -/
def codeOf (listing : List (Instruction τ)) : Code τ := fun a =>
  (listing[a.toNat]?).map (·, a + 1)

theorem laid_codeOf (listing : List (Instruction τ)) (hlength : listing.length < 2 ^ 64) :
    Laid (codeOf listing) 0 listing := by
  have hall : ∀ before rest, listing = before ++ rest →
      Laid (codeOf listing) (BitVec.ofNat 64 before.length) rest := by
    intro before rest
    induction rest generalizing before with
    | nil => exact fun _ => trivial
    | cons instruction rest ih =>
      intro hlisting
      have hlength' := congrArg List.length hlisting
      rw [List.length_append, List.length_cons] at hlength'
      have hat : (BitVec.ofNat 64 before.length).toNat = before.length := by
        rw [BitVec.toNat_ofNat, Nat.mod_eq_of_lt (by omega)]
      have hnext : BitVec.ofNat 64 before.length + 1 =
          BitVec.ofNat 64 (before ++ [instruction]).length := by
        rw [List.length_append, List.length_singleton]
        exact (BitVec.ofNat_add ..).symm
      refine ⟨BitVec.ofNat 64 before.length + 1, ?_, ?_⟩
      · unfold codeOf
        rw [hat, hlisting]
        simp
      · rw [hnext]
        exact ih (before ++ [instruction]) (by simp [hlisting])
  exact hall [] listing rfl

end StackMachine
