import KbmOs.Mouse.Overlay
import Mathlib.Data.List.Induction
/-!
# The bytes of the mouse, packet by packet

The controller sends a movement as three bytes. `mouse_irq` takes them one
at a time and recognises the first by its sync bit, so its packets are the
stream's as long as no first byte is dropped. It drops one: `0xFA`, which
it takes for a late acknowledgement, is also the first byte of a packet
with both overflow bits set.
-/

namespace KbmOs

open Raster

/-- A standard packet: the first byte has bit 3 set. -/
structure Packet where
  first : UInt8
  second : UInt8
  third : UInt8
  sync : first &&& 0x08 ≠ 0

def Packet.bytes (p : Packet) : List UInt8 := [p.first, p.second, p.third]

/-- The bytes as the driver keeps them. -/
def Packet.kept (p : Packet) : Vector UInt8 3 := #v[p.first, p.second, p.third]

/-- The stream of a list of packets. -/
def packetStream (packets : List Packet) : List UInt8 := packets.flatMap Packet.bytes

/-- An interrupt for each byte. -/
def mouseIrqs (mouse : Mouse) (screen : Pixels) : List UInt8 → Mouse × Pixels
  | [] => (mouse, screen)
  | byte :: rest => mouseIrqs (mouseIrq mouse byte screen).1 (mouseIrq mouse byte screen).2 rest

variable {mouse : Mouse} {screen : Pixels} {packets : List Packet} {p : Packet}

theorem mouseIrqs_append (mouse : Mouse) (screen : Pixels) (bytes rest : List UInt8) :
    mouseIrqs mouse screen (bytes ++ rest) =
      mouseIrqs (mouseIrqs mouse screen bytes).1 (mouseIrqs mouse screen bytes).2 rest := by
  induction bytes generalizing mouse screen with
  | nil => rfl
  | cons byte bytes ih => exact ih _ _

theorem packetStream_concat (packets : List Packet) (p : Packet) :
    packetStream (packets ++ [p]) = packetStream packets ++ p.bytes := by
  unfold packetStream
  rw [List.flatMap_append, List.flatMap_singleton]

/-! ## One byte -/

/-- The driver between two bytes of a packet. -/
def Mouse.holding (mouse : Mouse) (packet : Vector UInt8 3) (index : Fin 3) : Mouse :=
  { mouse with
    mousePacket := packet
    mousePacketIndex := index
    index_lt := index.isLt }

/-- **A byte that is kept** at the start of a packet. -/
theorem mouseIrq_start (hindex : mouse.mousePacketIndex = 0) {byte : UInt8} (hack : byte ≠ 0xFA)
    (hsync : byte &&& 0x08 ≠ 0) (screen : Pixels) :
    mouseIrq mouse byte screen =
      (mouse.holding (mouse.mousePacket.set 0 byte (by decide)) 1, screen) := by
  obtain ⟨packet, index, hlt, x, y, oldX, oldY, width, height, framebuffer, pixels, visible⟩ := mouse
  obtain rfl : index = 0 := hindex
  unfold mouseIrq
  rw [if_neg fun h => hack h.2, if_neg fun h => hsync h.2]
  rfl

/-- A byte that is dropped there. -/
theorem mouseIrq_drop (hindex : mouse.mousePacketIndex = 0) {byte : UInt8}
    (hdrop : byte = 0xFA ∨ byte &&& 0x08 = 0) (screen : Pixels) :
    mouseIrq mouse byte screen = (mouse, screen) := by
  unfold mouseIrq
  obtain hack | hsync := hdrop
  · rw [if_pos ⟨hindex, hack⟩]
  · split
    · rfl
    · rw [if_pos ⟨hindex, hsync⟩]

theorem mouseIrq_second (hindex : mouse.mousePacketIndex = 1) (byte : UInt8) (screen : Pixels) :
    mouseIrq mouse byte screen =
      (mouse.holding (mouse.mousePacket.set 1 byte (by decide)) 2, screen) := by
  obtain ⟨packet, index, hlt, x, y, oldX, oldY, width, height, framebuffer, pixels, visible⟩ := mouse
  obtain rfl : index = 1 := hindex
  unfold mouseIrq
  rw [if_neg fun h => (by cases h.1), if_neg fun h => (by cases h.1)]
  rfl

/-- The cursor's drawing leaves the packet, the position and the screen's
dimensions. -/
theorem mouseShowCursor_keeps (mouse : Mouse) (screen : Pixels) :
    (mouseShowCursor mouse screen).1.mousePacketIndex = mouse.mousePacketIndex ∧
      (mouseShowCursor mouse screen).1.mousePacket = mouse.mousePacket ∧
      (mouseShowCursor mouse screen).1.mouseX = mouse.mouseX ∧
      (mouseShowCursor mouse screen).1.mouseY = mouse.mouseY ∧
      (mouseShowCursor mouse screen).1.mouseScreenWidth = mouse.mouseScreenWidth ∧
      (mouseShowCursor mouse screen).1.mouseScreenHeight = mouse.mouseScreenHeight := by
  unfold mouseShowCursor
  split <;> exact ⟨rfl, rfl, rfl, rfl, rfl, rfl⟩

/-- **The third byte** ends the packet; the cursor moves unless a movement
has overflowed. -/
theorem mouseIrq_third (hindex : mouse.mousePacketIndex = 2) (byte : UInt8) (screen : Pixels) :
    ∃ mouse', (mouseIrq mouse byte screen).1 = mouse' ∧
      mouse'.mousePacketIndex = 0 ∧ mouse'.mousePacket = mouse.mousePacket.set 2 byte (by decide) ∧
      mouse'.mouseScreenWidth = mouse.mouseScreenWidth ∧
      mouse'.mouseScreenHeight = mouse.mouseScreenHeight ∧
      mouse'.mouseX =
        (if mouse.mousePacket.get 0 &&& 0xC0 = 0 then
          mouseClamp (int32 (mouse.mouseX + int8 (mouse.mousePacket.get 1))) mouse.mouseScreenWidth
        else mouse.mouseX) ∧
      mouse'.mouseY =
        (if mouse.mousePacket.get 0 &&& 0xC0 = 0 then
          mouseClamp (int32 (mouse.mouseY - int8 byte)) mouse.mouseScreenHeight
        else mouse.mouseY) := by
  obtain ⟨packet, index, hlt, x, y, oldX, oldY, width, height, framebuffer, pixels, visible⟩ := mouse
  obtain rfl : index = 2 := hindex
  refine ⟨_, rfl, ?_⟩
  unfold mouseIrq
  rw [if_neg fun h => (by cases h.1), if_neg fun h => (by cases h.1)]
  dsimp only
  rw [dif_neg (by omega)]
  have hfirst : (packet.set 2 byte)[0] = packet.get 0 := by simp [Vector.get]
  have hsecond : (packet.set 2 byte)[1] = packet.get 1 := by simp [Vector.get]
  have hthird : (packet.set 2 byte)[2] = byte := by simp
  rw [hfirst, hsecond, hthird]
  split
  · rw [mouseHideCursor_fst]
    obtain ⟨hindex, hpacket, hx, hy, hwidth, hheight⟩ := mouseShowCursor_keeps _ _
    rw [hindex, hpacket, hx, hy, hwidth, hheight]
    exact ⟨rfl, rfl, rfl, rfl, rfl, rfl⟩
  · exact ⟨rfl, rfl, rfl, rfl, rfl, rfl⟩

/-- **What a packet does** to the driver. -/
structure TakesPacket (mouse : Mouse) (p : Packet) (mouse' : Mouse) : Prop where
  index : mouse'.mousePacketIndex = 0
  packet : mouse'.mousePacket = p.kept
  width : mouse'.mouseScreenWidth = mouse.mouseScreenWidth
  height : mouse'.mouseScreenHeight = mouse.mouseScreenHeight
  x : mouse'.mouseX =
    if p.first &&& 0xC0 = 0 then
      mouseClamp (int32 (mouse.mouseX + int8 p.second)) mouse.mouseScreenWidth
    else mouse.mouseX
  y : mouse'.mouseY =
    if p.first &&& 0xC0 = 0 then
      mouseClamp (int32 (mouse.mouseY - int8 p.third)) mouse.mouseScreenHeight
    else mouse.mouseY

/-- **The three bytes of a packet are taken**, if the first is not dropped. -/
theorem takesPacket (hindex : mouse.mousePacketIndex = 0) (hack : p.first ≠ 0xFA)
    (screen : Pixels) : TakesPacket mouse p (mouseIrqs mouse screen p.bytes).1 := by
  have hfirst := mouseIrq_start hindex hack p.sync screen
  have hsecond := mouseIrq_second
    (show (mouse.holding (mouse.mousePacket.set 0 p.first) 1).mousePacketIndex = 1 from rfl)
    p.second screen
  have hpacket : ((mouse.holding (mouse.mousePacket.set 0 p.first) 1).holding
      ((mouse.mousePacket.set 0 p.first).set 1 p.second) 2).mousePacket =
        #v[p.first, p.second, mouse.mousePacket[2]] := by
    ext i hi
    obtain rfl | rfl | rfl : i = 0 ∨ i = 1 ∨ i = 2 := by omega
    · simp [Mouse.holding]
    · simp [Mouse.holding]
    · simp [Mouse.holding]
  obtain ⟨mouse', hlast, hend, hkept, hwidth, hheight, hx, hy⟩ := mouseIrq_third
    (show ((mouse.holding (mouse.mousePacket.set 0 p.first) 1).holding
      ((mouse.mousePacket.set 0 p.first).set 1 p.second) 2).mousePacketIndex = 2 from rfl)
    p.third screen
  have hrun : (mouseIrqs mouse screen p.bytes).1 = mouse' := by
    simp only [Packet.bytes, mouseIrqs, hfirst, hsecond]
    exact hlast
  rw [hpacket] at hkept hx hy
  rw [hrun]
  exact ⟨hend, hkept, hwidth, hheight, hx, hy⟩

/-! ## The driver's packets and the stream's -/

/-- The states of the driver: its functions have run in any order, whatever
was on the screen. -/
inductive Mouse.Reached : Mouse → Prop
  | boot (framebuffer : Framebuffer) : Reached (Mouse.atBoot framebuffer)
  | init {mouse : Mouse} (h : Reached mouse) (framebuffer : Framebuffer) (screen : Pixels) :
      Reached (mouseInit mouse framebuffer screen).1
  | irq {mouse : Mouse} (h : Reached mouse) (byte : UInt8) (screen : Pixels) :
      Reached (mouseIrq mouse byte screen).1
  | hidden {mouse : Mouse} (h : Reached mouse) (screen : Pixels) :
      Reached (mouseHideCursor mouse screen).1
  | shown {mouse : Mouse} (h : Reached mouse) (screen : Pixels) :
      Reached (mouseShowCursor mouse screen).1

/-- A byte that is kept as the first is no acknowledgement. -/
theorem mouseIrq_first_ne (h : mouse.mousePacket[0] ≠ 0xFA) (byte : UInt8) (screen : Pixels) :
    (mouseIrq mouse byte screen).1.mousePacket[0] ≠ 0xFA := by
  by_cases hdrop : mouse.mousePacketIndex = 0 ∧ (byte = 0xFA ∨ byte &&& 0x08 = 0)
  · rw [mouseIrq_drop hdrop.1 hdrop.2]
    exact h
  match hindex : mouse.mousePacketIndex, mouse.index_lt with
  | 0, _ =>
    obtain ⟨hack, hsync⟩ := not_or.1 fun hbyte => hdrop ⟨hindex, hbyte⟩
    rw [mouseIrq_start hindex hack hsync]
    simpa [Mouse.holding] using hack
  | 1, _ =>
    rw [mouseIrq_second hindex]
    simpa [Mouse.holding] using h
  | 2, _ =>
    obtain ⟨mouse', heq, -, hpacket, -⟩ := mouseIrq_third hindex byte screen
    rw [heq, hpacket]
    simpa using h

theorem Mouse.Reached.first_ne (h : mouse.Reached) : mouse.mousePacket[0] ≠ 0xFA := by
  induction h with
  | boot framebuffer =>
    show (Vector.replicate 3 (0 : UInt8))[0] ≠ 0xFA
    decide
  | init h framebuffer screen ih =>
    unfold mouseInit
    rw [(mouseShowCursor_keeps _ _).2.1]
    exact ih
  | irq h byte screen ih => exact mouseIrq_first_ne ih byte screen
  | hidden h screen ih =>
    rw [mouseHideCursor_fst]
    exact ih
  | shown h screen ih =>
    rw [(mouseShowCursor_keeps _ _).2.1]
    exact ih

theorem Mouse.Reached.irqs (h : mouse.Reached) (screen : Pixels) (bytes : List UInt8) :
    (mouseIrqs mouse screen bytes).1.Reached := by
  induction bytes generalizing mouse screen with
  | nil => exact h
  | cons byte bytes ih => exact ih (h.irq byte screen) _

/-- **The driver's packets are the stream's**: after each packet it waits for
a first byte, and holds the packet's three bytes. -/
def Framed (mouse : Mouse) (screen : Pixels) (packets : List Packet) : Prop :=
  ∀ before p after, packets = before ++ p :: after →
    (mouseIrqs mouse screen (packetStream (before ++ [p]))).1.mousePacketIndex = 0 ∧
    (mouseIrqs mouse screen (packetStream (before ++ [p]))).1.mousePacket = p.kept

/-- Packets that do not start with an acknowledgement leave the driver
between two packets. -/
theorem packets_index (hindex : mouse.mousePacketIndex = 0) (screen : Pixels)
    (hack : ∀ p ∈ packets, p.first ≠ 0xFA) :
    (mouseIrqs mouse screen (packetStream packets)).1.mousePacketIndex = 0 := by
  induction packets using List.reverseRecOn with
  | nil => exact hindex
  | append_singleton packets p ih =>
    rw [packetStream_concat, mouseIrqs_append]
    have hbefore := ih fun q hq => hack q (List.mem_append_left _ hq)
    exact (takesPacket hbefore (hack p (by simp)) _).index

/-- **Framing is kept exactly while no packet starts with `0xFA`.** The
driver drops that byte between two packets, and never holds it as a first
byte. -/
theorem mouse_framing_iff (hreached : mouse.Reached) (hindex : mouse.mousePacketIndex = 0)
    (screen : Pixels) (packets : List Packet) :
    Framed mouse screen packets ↔ ∀ p ∈ packets, p.first ≠ 0xFA := by
  constructor
  · intro hframed p hp hack
    obtain ⟨before, after, rfl⟩ := List.append_of_mem hp
    have hkept := (hframed before p after rfl).2
    have hne := (hreached.irqs screen (packetStream (before ++ [p]))).first_ne
    rw [hkept] at hne
    exact hne hack
  · rintro hack before p after rfl
    have hbefore := packets_index hindex screen fun q hq => hack q (List.mem_append_left _ hq)
    have htakes := takesPacket hbefore (hack p (by simp))
      (mouseIrqs mouse screen (packetStream before)).2
    rw [packetStream_concat, mouseIrqs_append]
    exact ⟨htakes.index, htakes.packet⟩

/-- A screen of 1280 by 800 pixels. -/
def wideScreen : Framebuffer where
  width := 1280
  height := 800
  pitch := 5120
  height_lt := by decide
  pitch_lt := by decide
  stride := by decide
  inMemory := by decide

/-- The driver after its initialisation there. -/
def sampleMouse : Mouse := (mouseInit (Mouse.atBoot wideScreen) wideScreen fun _ => 0).1

theorem sampleMouse_index : sampleMouse.mousePacketIndex = 0 :=
  (mouseShowCursor_keeps _ _).1

theorem mouse_framing_iff_sampleMouse :
    Framed sampleMouse (fun _ => 0) [⟨0x08, 1, 2, by decide⟩, ⟨0x38, 0xFF, 0xFE, by decide⟩] :=
  (mouse_framing_iff (.init (.boot wideScreen) wideScreen _) sampleMouse_index _ _).2 (by decide)

/-- **One such packet shifts all boundaries**: the driver is left with its
last two bytes. -/
theorem mouse_framing_lost :
    sampleMouse.mousePacketIndex = 0 ∧
      (mouseIrqs sampleMouse (fun _ => 0) [0xFA, 0x08, 0x00]).1.mousePacketIndex = 2 ∧
      ¬Framed sampleMouse (fun _ => 0) [⟨0xFA, 0x08, 0x00, by decide⟩] := by
  have hdropped := mouseIrq_drop sampleMouse_index (Or.inl rfl : (0xFA : UInt8) = 0xFA ∨ _)
    (fun _ => 0)
  have hstart := mouseIrq_start sampleMouse_index (show (0x08 : UInt8) ≠ 0xFA by decide)
    (by decide) (fun _ => 0)
  have hsecond := mouseIrq_second (show (sampleMouse.holding
    (sampleMouse.mousePacket.set 0 0x08) 1).mousePacketIndex = 1 from rfl) 0x00 (fun _ => 0)
  have hleft : (mouseIrqs sampleMouse (fun _ => 0) [0xFA, 0x08, 0x00]).1.mousePacketIndex = 2 := by
    simp only [mouseIrqs, hdropped, hstart, hsecond]
    rfl
  refine ⟨sampleMouse_index, hleft, fun hframed => ?_⟩
  have hindex := (hframed [] _ [] rfl).1
  cases hleft.symm.trans hindex

end KbmOs
