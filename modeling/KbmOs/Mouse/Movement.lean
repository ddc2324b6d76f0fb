import KbmOs.Mouse.Packets
/-!
# The movement of the cursor

A packet carries each movement as a number of nine bits: the low eight are a
byte, the sign is a bit of the first byte. `mouse_irq` reads the byte alone,
as a number of eight bits with a sign of its own. Between -128 and 127 the
two readings are the same; elsewhere they are 256 apart, and the position is
the right one only where the screen's edge makes up for it.
-/

namespace KbmOs

open Raster

/-! ## The movements of a packet -/

/-- A number of nine bits in two's complement. -/
def signed9 (byte : UInt8) (negative : Bool) : ℤ := byte.toNat - if negative then 256 else 0

def Packet.xMovement (p : Packet) : ℤ := signed9 p.second (p.first &&& 0x10 ≠ 0)
def Packet.yMovement (p : Packet) : ℤ := signed9 p.third (p.first &&& 0x20 ≠ 0)

/-- A coordinate kept between zero and the last position of the cursor. -/
def keptOn (limit coordinate : ℤ) : ℤ := max 0 (min coordinate limit)

/-- The position after a packet, on a screen of these dimensions. -/
def movedBy (width height : ℕ) (position : ℤ × ℤ) (p : Packet) : ℤ × ℤ :=
  (keptOn (width - 4) (position.1 + p.xMovement), keptOn (height - 4) (position.2 - p.yMovement))

/-- **Where the packets move the cursor.** -/
def movedByAll (width height : ℕ) (position : ℤ × ℤ) (packets : List Packet) : ℤ × ℤ :=
  packets.foldl (movedBy width height) position

/-- Where the driver has it. -/
def Mouse.position (mouse : Mouse) : ℤ × ℤ := (mouse.mouseX, mouse.mouseY)

/-! ## Readings of a byte -/

theorem int8_eq (byte : UInt8) :
    int8 byte = if byte.toNat < 128 then (byte.toNat : ℤ) else byte.toNat - 256 := by
  have hbyte := byte.toNat_lt
  unfold int8
  rw [Int.bmod_def]
  split <;> split <;> omega

/-- The byte alone says the movement up to a multiple of 256. -/
theorem signed9_cases (byte : UInt8) (negative : Bool) :
    (-128 ≤ signed9 byte negative ∧ signed9 byte negative ≤ 127 ∧
      int8 byte = signed9 byte negative) ∨
    (127 < signed9 byte negative ∧ signed9 byte negative < 256 ∧
      int8 byte = signed9 byte negative - 256) ∨
    (-256 ≤ signed9 byte negative ∧ signed9 byte negative < -128 ∧
      int8 byte = signed9 byte negative + 256) := by
  have hbyte := byte.toNat_lt
  rw [int8_eq]
  unfold signed9
  cases negative <;> simp <;> split <;> omega

/-- **Two sums are kept at one place** only when they are equal or past the
same edge. -/
theorem keptOn_eq_iff {limit a b : ℤ} (hlimit : 0 < limit) :
    keptOn limit a = keptOn limit b ↔ a = b ∨ a ≤ 0 ∧ b ≤ 0 ∨ limit ≤ a ∧ limit ≤ b := by
  unfold keptOn
  omega

theorem int32_of_lt {n : ℤ} (hlow : -2 ^ 31 ≤ n) (hhigh : n < 2 ^ 31) : int32 n = n := by
  unfold int32
  rw [Int.bmod_def]
  split <;> omega

/-- **The driver's clamp**, where nothing wraps. -/
theorem mouseClamp_eq {coordinate : ℤ} {dimension : ℕ} (hlow : 4 ≤ dimension)
    (hhigh : dimension ≤ 2 ^ 30) (hcoordinate : -2 ^ 31 ≤ coordinate)
    (hcoordinate' : coordinate < 2 ^ 31) :
    mouseClamp (int32 coordinate) dimension = keptOn (dimension - 4) coordinate := by
  have hlimit : wrapSub dimension mouseCursorSize = dimension - 4 := wrapSub_of_le (by omega) hlow
  unfold mouseClamp keptOn toUint64
  rw [hlimit, int32_of_lt hcoordinate hcoordinate', int32_of_lt (by omega) (by omega)]
  by_cases hnegative : coordinate < 0
  · rw [if_pos hnegative, if_neg (by omega)]
    omega
  · rw [if_neg hnegative]
    dsimp only
    split <;> omega

/-! ## One packet -/

/-- **The movements that the bytes alone get right**: those of eight bits,
and those whose two readings leave the screen at one edge. -/
def ExactMove (width height : ℕ) (position : ℤ × ℤ) (p : Packet) : Prop :=
  (-128 ≤ p.xMovement ∧ p.xMovement ≤ 127 ∨ p.xMovement = -256 ∧ position.1 = 0 ∨
    127 < p.xMovement ∧ width - 4 + 256 ≤ position.1 + p.xMovement) ∧
  (-128 ≤ p.yMovement ∧ p.yMovement ≤ 127 ∨
    p.yMovement < -128 ∧ height - 4 ≤ position.2 - p.yMovement - 256)

/-- A position on a screen. -/
def OnScreen (width height : ℕ) (position : ℤ × ℤ) : Prop :=
  (0 ≤ position.1 ∧ position.1 < width) ∧ 0 ≤ position.2 ∧ position.2 < height

variable {mouse mouse' : Mouse} {screen : Pixels} {packets : List Packet} {p : Packet}
variable {width height : ℕ} {position : ℤ × ℤ}

theorem OnScreen.movedBy (hwidth : 8 ≤ width) (hheight : 8 ≤ height) (position : ℤ × ℤ)
    (p : Packet) : OnScreen width height (movedBy width height position p) := by
  unfold OnScreen KbmOs.movedBy keptOn
  omega

theorem OnScreen.movedByAll (h : OnScreen width height position) (hwidth : 8 ≤ width)
    (hheight : 8 ≤ height) (packets : List Packet) :
    OnScreen width height (movedByAll width height position packets) := by
  induction packets generalizing position with
  | nil => exact h
  | cons p packets ih => exact ih (.movedBy hwidth hheight position p)

theorem movedByAll_concat (width height : ℕ) (position : ℤ × ℤ) (packets : List Packet)
    (p : Packet) :
    movedByAll width height position (packets ++ [p]) =
      movedBy width height (movedByAll width height position packets) p := by
  unfold movedByAll
  rw [List.foldl_append]
  rfl

/-- A packet without overflow is no acknowledgement. -/
theorem ne_ack_of_clear (hclear : p.first &&& 0xC0 = 0) : p.first ≠ 0xFA := by
  intro hack
  rw [hack] at hclear
  cases hclear

/-- **One packet moves the cursor right exactly when its move is exact.** -/
theorem takesPacket_position_iff (htakes : TakesPacket mouse p mouse')
    (hclear : p.first &&& 0xC0 = 0)
    (hwidth : 8 ≤ mouse.mouseScreenWidth ∧ mouse.mouseScreenWidth ≤ 2 ^ 30)
    (hheight : 8 ≤ mouse.mouseScreenHeight ∧ mouse.mouseScreenHeight ≤ 2 ^ 30)
    (hon : OnScreen mouse.mouseScreenWidth mouse.mouseScreenHeight mouse.position) :
    mouse'.position = movedBy mouse.mouseScreenWidth mouse.mouseScreenHeight mouse.position p ↔
      ExactMove mouse.mouseScreenWidth mouse.mouseScreenHeight mouse.position p := by
  obtain ⟨⟨hx, hx'⟩, hy, hy'⟩ := hon
  have hxByte := signed9_cases p.second (p.first &&& 0x10 ≠ 0)
  have hyByte := signed9_cases p.third (p.first &&& 0x20 ≠ 0)
  rw [← Packet.xMovement] at hxByte
  rw [← Packet.yMovement] at hyByte
  unfold Mouse.position at hx hx' hy hy' ⊢
  dsimp only at hx hx' hy hy'
  have hxStep : mouse'.mouseX = keptOn (mouse.mouseScreenWidth - 4) (mouse.mouseX + int8 p.second) := by
    rw [htakes.x, if_pos hclear, mouseClamp_eq (by omega) hwidth.2 (by omega) (by omega)]
  have hyStep : mouse'.mouseY =
      keptOn (mouse.mouseScreenHeight - 4) (mouse.mouseY - int8 p.third) := by
    rw [htakes.y, if_pos hclear, mouseClamp_eq (by omega) hheight.2 (by omega) (by omega)]
  unfold movedBy ExactMove
  rw [hxStep, hyStep, Prod.mk.injEq, keptOn_eq_iff (by omega), keptOn_eq_iff (by omega)]
  dsimp only
  omega

/-! ## All packets -/

/-- The driver after packets without overflow. -/
theorem clearPackets_run (hindex : mouse.mousePacketIndex = 0) (screen : Pixels)
    (hclear : ∀ p ∈ packets, p.first &&& 0xC0 = 0) :
    ∃ mouse', (mouseIrqs mouse screen (packetStream packets)).1 = mouse' ∧
      mouse'.mousePacketIndex = 0 ∧ mouse'.mouseScreenWidth = mouse.mouseScreenWidth ∧
      mouse'.mouseScreenHeight = mouse.mouseScreenHeight := by
  induction packets using List.reverseRecOn with
  | nil => exact ⟨mouse, rfl, hindex, rfl, rfl⟩
  | append_singleton packets p ih =>
    obtain ⟨before, hrun, hbefore, hwidth, hheight⟩ :=
      ih fun q hq => hclear q (List.mem_append_left _ hq)
    have htakes := takesPacket hbefore (ne_ack_of_clear (hclear p (by simp)))
      (mouseIrqs mouse screen (packetStream packets)).2
    refine ⟨_, rfl, ?_⟩
    rw [packetStream_concat, mouseIrqs_append, hrun]
    exact ⟨htakes.index, htakes.width.trans hwidth, htakes.height.trans hheight⟩

/-- After packets that have moved the cursor right, one more does so exactly
when its move is exact. -/
theorem position_concat_iff (hindex : mouse.mousePacketIndex = 0)
    (hwidth : 8 ≤ mouse.mouseScreenWidth ∧ mouse.mouseScreenWidth ≤ 2 ^ 30)
    (hheight : 8 ≤ mouse.mouseScreenHeight ∧ mouse.mouseScreenHeight ≤ 2 ^ 30)
    (hon : OnScreen mouse.mouseScreenWidth mouse.mouseScreenHeight mouse.position)
    (hclear : ∀ q ∈ packets, q.first &&& 0xC0 = 0) (hlast : p.first &&& 0xC0 = 0)
    (hbefore : (mouseIrqs mouse screen (packetStream packets)).1.position =
      movedByAll mouse.mouseScreenWidth mouse.mouseScreenHeight mouse.position packets) :
    (mouseIrqs mouse screen (packetStream (packets ++ [p]))).1.position =
        movedByAll mouse.mouseScreenWidth mouse.mouseScreenHeight mouse.position
          (packets ++ [p]) ↔
      ExactMove mouse.mouseScreenWidth mouse.mouseScreenHeight
        (movedByAll mouse.mouseScreenWidth mouse.mouseScreenHeight mouse.position packets) p := by
  obtain ⟨before, hrun, hstart, hbeforeWidth, hbeforeHeight⟩ :=
    clearPackets_run hindex screen hclear
  have htakes := takesPacket hstart (ne_ack_of_clear hlast)
    (mouseIrqs mouse screen (packetStream packets)).2
  have hall := hon.movedByAll hwidth.1 hheight.1 packets
  rw [hrun] at hbefore
  rw [packetStream_concat, mouseIrqs_append, movedByAll_concat, hrun]
  rw [← hbefore] at hall ⊢
  rw [← hbeforeWidth] at hall hwidth ⊢
  rw [← hbeforeHeight] at hall hheight ⊢
  exact takesPacket_position_iff htakes hlast hwidth hheight hall

/-- **The cursor follows the packets exactly while every move is exact.** On
every screen, from every position and for all packets without overflow: the
position is the one the encoding says after each packet if and only if the
move of each, from the position the encoding says, is one the bytes alone
get right. -/
theorem mouse_position_iff (hindex : mouse.mousePacketIndex = 0)
    (hwidth : 8 ≤ mouse.mouseScreenWidth ∧ mouse.mouseScreenWidth ≤ 2 ^ 30)
    (hheight : 8 ≤ mouse.mouseScreenHeight ∧ mouse.mouseScreenHeight ≤ 2 ^ 30)
    (hon : OnScreen mouse.mouseScreenWidth mouse.mouseScreenHeight mouse.position)
    (screen : Pixels) (hclear : ∀ p ∈ packets, p.first &&& 0xC0 = 0) :
    (∀ before after, packets = before ++ after →
        (mouseIrqs mouse screen (packetStream before)).1.position =
          movedByAll mouse.mouseScreenWidth mouse.mouseScreenHeight mouse.position before) ↔
      ∀ before p after, packets = before ++ p :: after →
        ExactMove mouse.mouseScreenWidth mouse.mouseScreenHeight
          (movedByAll mouse.mouseScreenWidth mouse.mouseScreenHeight mouse.position before) p := by
  constructor
  · rintro hfollows before p after rfl
    refine (position_concat_iff hindex hwidth hheight hon
      (fun q hq => hclear q (List.mem_append_left _ hq)) (hclear p (by simp))
      (hfollows before (p :: after) rfl)).1 ?_
    exact hfollows (before ++ [p]) after (by simp)
  · rintro hexact before
    induction before using List.reverseRecOn with
    | nil => exact fun _ _ => rfl
    | append_singleton before p ih =>
      rintro after rfl
      refine (position_concat_iff hindex hwidth hheight hon
        (fun q hq => hclear q (by simp [hq])) (hclear p (by simp)) (ih (p :: after) (by simp))).2 ?_
      exact hexact before p after (by simp)

theorem sampleMouse_statics : sampleMouse.mouseScreenWidth = 1280 ∧
    sampleMouse.mouseScreenHeight = 800 ∧ sampleMouse.position = (640, 400) := by
  obtain ⟨-, -, hx, hy, hwidth, hheight⟩ := mouseShowCursor_keeps
    { Mouse.atBoot wideScreen with
      mouseScreenWidth := 1280
      mouseScreenHeight := 800
      mouseX := int32 640
      mouseY := int32 400
      mouseOldX := int32 640
      mouseOldY := int32 400 } fun _ => 0
  exact ⟨hwidth, hheight, congrArg₂ Prod.mk (hx.trans (by decide)) (hy.trans (by decide))⟩

/-- A move to the left and down, and one to the left and up. -/
theorem mouse_position_iff_sampleMouse :
    (mouseIrqs sampleMouse (fun _ => 0) (packetStream
      [⟨0x38, 0xF6, 0xFB, by decide⟩, ⟨0x18, 0x80, 0x7F, by decide⟩])).1.position = (502, 278) := by
  obtain ⟨hwidth, hheight, hposition⟩ := sampleMouse_statics
  refine ((mouse_position_iff sampleMouse_index (by omega) (by omega) ?_ (fun _ => 0) ?_).2 ?_ _ []
    (List.append_nil _).symm).trans ?_
  · rw [hwidth, hheight, hposition]
    exact ⟨⟨by decide, by decide⟩, by decide, by decide⟩
  · decide
  · rintro before p after hsplit
    rw [hwidth, hheight, hposition]
    rcases before with _ | ⟨q, _ | ⟨q', rest⟩⟩
    · obtain ⟨rfl, -⟩ := List.cons.inj hsplit
      exact ⟨Or.inl (by decide), Or.inl (by decide)⟩
    · obtain ⟨rfl, hrest⟩ := List.cons.inj hsplit
      obtain ⟨rfl, -⟩ := List.cons.inj hrest
      exact ⟨Or.inl (by decide), Or.inl (by decide)⟩
    · simp at hsplit
  · rw [hwidth, hheight, hposition]
    decide

/-- **A movement of 200 to the right goes 56 to the left.** -/
theorem mouse_position_diverges :
    sampleMouse.position = (640, 400) ∧
      (mouseIrqs sampleMouse (fun _ => 0)
        (packetStream [⟨0x08, 200, 0, by decide⟩])).1.position = (584, 400) ∧
      movedByAll 1280 800 (640, 400) [⟨0x08, 200, 0, by decide⟩] = (840, 400) := by
  obtain ⟨hwidth, hheight, hposition⟩ := sampleMouse_statics
  obtain ⟨hx, hy⟩ := Prod.mk.inj hposition
  have htakes := takesPacket (p := ⟨0x08, 200, 0, by decide⟩) sampleMouse_index (by decide)
    fun _ => 0
  refine ⟨hposition, ?_, by decide⟩
  show (_, _) = ((584 : ℤ), (400 : ℤ))
  rw [packetStream, List.flatMap_singleton, htakes.x, htakes.y, hwidth, hheight, hx, hy]
  decide

end KbmOs
