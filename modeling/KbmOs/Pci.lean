import KbmOs.Lib.PciConfig
import KbmOs.Paging.Agreement
import KbmOs.SerialLog
/-!
# The scan of the PCI bus

`pci_config_read_dword` of `arch/x86_64/pci.c`, and `pci_debug_scan_bus` of
`main.c`, which logs the functions of a bus and, of each E1000, where its
registers are. The log can be read back: it names every function that is
there, once, with the address its base address registers stand for.
-/

namespace KbmOs

open PciConfig Reading SerialPort

/-- The address is written to the one port, and the register read from the
other. -/
def pciConfigReadDword (bus device function offset : BitVec 8) : StateM Mechanism (BitVec 32) := do
  let address : BitVec 32 := 0x80000000 ||| bus.setWidth 32 <<< 16 ||| device.setWidth 32 <<< 11 |||
    function.setWidth 32 <<< 8 ||| offset.setWidth 32 &&& 0xFC
  modify (Mechanism.writeAddress address)
  return (← get).readData

/-- What `paging_is_mapped` is asked about. -/
structure PageView where
  memory : PageMemory
  cr3 : Word
  hhdmOffset : Word

/-- The lines about an E1000. -/
def pciDebugE1000 (view : PageView) (bus device function : BitVec 8) :
    StateM Mechanism (List LogItem) := do
  let bar0 ← pciConfigReadDword bus device function 0x10
  let raw : List LogItem := [.words "KBM_E1000_BAR0_RAW=", .hex bar0.toNat, .words "\n"]
  if bar0 &&& 1 = 0 then
    let bar0Base := (bar0 &&& 0xFFFFFFF0).setWidth 64
    let barType := (bar0 >>> 1) &&& 0x3
    let bar0Base : BitVec 64 ←
      if barType = 0x2 then do
        let bar1 ← pciConfigReadDword bus device function 0x14
        pure (bar0Base ||| bar1.setWidth 64 <<< 32)
      else pure bar0Base
    let bar0HhdmAddress := view.hhdmOffset + bar0Base
    pure (raw ++ [.words "KBM_E1000_MMIO_BASE=", .hex bar0Base.toNat, .words "\n",
      .words "KBM_E1000_HHDM_ADDRESS=", .hex bar0HhdmAddress.toNat, .words "\n",
      if pagingIsMapped view.memory view.cr3 view.hhdmOffset bar0HhdmAddress then
        .words "KBM_E1000_HHDM_MAPPED\n"
      else .words "KBM_E1000_HHDM_NOT_MAPPED\n"])
  else
    pure (raw ++ [.words "KBM_E1000_IO_BASE=", .hex (bar0 &&& 0xFFFFFFFC).toNat, .words "\n"])

/-- The body of the loops. -/
def pciDebugFunction (view : PageView) (bus device function : BitVec 8) :
    StateM Mechanism (List LogItem) := do
  let identity ← pciConfigReadDword bus device function 0
  let vendorId := (identity &&& 0xFFFF).setWidth 16
  let deviceId := (identity >>> 16).setWidth 16
  if vendorId = 0xFFFF then pure []
  else
    let line : List LogItem := [.words "KBM_PCI_DEVICE BDF=", .hex bus.toNat, .words ":",
      .hex device.toNat, .words ":", .hex function.toNat, .words " VENDOR=", .hex vendorId.toNat,
      .words " DEVICE=", .hex deviceId.toNat, .words "\n"]
    if vendorId = 0x8086 ∧ deviceId = 0x100E then
      let lines ← pciDebugE1000 view bus device function
      pure (line ++ lines)
    else pure line

def pciDebugScanBus (view : PageView) (bus : BitVec 8) : StateM Mechanism (List LogItem) := do
  let logs ← (List.range 32).mapM fun device => do
    let lines ← (List.range 8).mapM fun function =>
      pciDebugFunction view bus (BitVec.ofNat 8 device) (BitVec.ofNat 8 function)
    pure lines.flatten
  pure logs.flatten

/-! ## What is there -/

/-- The two halves of a function's first register. -/
def vendorOf (space : Space) (place : Place) : BitVec 16 := (space place 0).extractLsb' 0 16
def deviceOf (space : Space) (place : Place) : BitVec 16 := (space place 0).extractLsb' 16 16

def IsE1000 (space : Space) (place : Place) : Prop :=
  vendorOf space place = 0x8086 ∧ deviceOf space place = 0x100E

instance (space : Space) (place : Place) : Decidable (IsE1000 space place) :=
  inferInstanceAs (Decidable (_ ∧ _))

/-- What the log says about an E1000's region. -/
inductive RegionReport
  | ports (base : ℕ)
  | memory (base hhdmAddress : ℕ) (mapped : Bool)
deriving DecidableEq

/-- What it says about a function. -/
structure PciReport where
  bus : ℕ
  device : ℕ
  function : ℕ
  vendorId : ℕ
  deviceId : ℕ
  region : Option (ℕ × RegionReport)
deriving DecidableEq

/-- The region is reported as it is, and as mapped if the processor's walk
of its address finds a page. -/
def regionReport (view : PageView) : Region → RegionReport
  | .ports port => .ports (Region.ports port).base.toNat
  | region => .memory region.base.toNat (view.hhdmOffset + region.base).toNat
      (pageWalk view.memory view.cr3 view.hhdmOffset (view.hhdmOffset + region.base)).isSome

/-- What the log says about a function. -/
def pciReport (view : PageView) (space : Space) (regions : Place → Region) (place : Place) :
    PciReport where
  bus := place.bus.toNat
  device := place.device.toNat
  function := place.function.toNat
  vendorId := (vendorOf space place).toNat
  deviceId := (deviceOf space place).toNat
  region :=
    if IsE1000 space place then some ((space place 4).toNat, regionReport view (regions place)) else none

/-! ## Reading the log -/

/-- The lines of a report. -/
def RegionReport.items : RegionReport → List LogItem
  | .ports base => [.words "KBM_E1000_IO_BASE=", .hex base, .words "\n"]
  | .memory base hhdmAddress mapped => [.words "KBM_E1000_MMIO_BASE=", .hex base, .words "\n",
      .words "KBM_E1000_HHDM_ADDRESS=", .hex hhdmAddress, .words "\n",
      if mapped then .words "KBM_E1000_HHDM_MAPPED\n" else .words "KBM_E1000_HHDM_NOT_MAPPED\n"]

def PciReport.items (report : PciReport) : List LogItem :=
  [.words "KBM_PCI_DEVICE BDF=", .hex report.bus, .words ":", .hex report.device, .words ":",
    .hex report.function, .words " VENDOR=", .hex report.vendorId, .words " DEVICE=",
    .hex report.deviceId, .words "\n"] ++
  match report.region with
  | none => []
  | some (raw, region) => [.words "KBM_E1000_BAR0_RAW=", .hex raw, .words "\n"] ++ region.items

def readMapped : Reader ℕ Bool :=
  either (do readWords "KBM_E1000_HHDM_MAPPED\n"; pure true)
    (do readWords "KBM_E1000_HHDM_NOT_MAPPED\n"; pure false)

def readMemory : Reader ℕ RegionReport := do
  readWords "KBM_E1000_MMIO_BASE="
  let base ← readHex
  readWords "\n"
  readWords "KBM_E1000_HHDM_ADDRESS="
  let hhdmAddress ← readHex
  readWords "\n"
  let mapped ← readMapped
  pure (.memory base hhdmAddress mapped)

def readPorts : Reader ℕ RegionReport := do
  readWords "KBM_E1000_IO_BASE="
  let base ← readHex
  readWords "\n"
  pure (.ports base)

/-- A function's line, and an E1000's further ones. -/
def readPciReport : Reader ℕ PciReport := do
  readWords "KBM_PCI_DEVICE BDF="
  let bus ← readHex
  readWords ":"
  let device ← readHex
  readWords ":"
  let function ← readHex
  readWords " VENDOR="
  let vendorId ← readHex
  readWords " DEVICE="
  let deviceId ← readHex
  readWords "\n"
  if vendorId = 0x8086 ∧ deviceId = 0x100E then
    readWords "KBM_E1000_BAR0_RAW="
    let raw ← readHex
    readWords "\n"
    let region ← either readMemory readPorts
    pure ⟨bus, device, function, vendorId, deviceId, some (raw, region)⟩
  else pure ⟨bus, device, function, vendorId, deviceId, none⟩

theorem takes_mapped (mapped : Bool) : Takes readMapped (logCharacters
    [if mapped then .words "KBM_E1000_HHDM_MAPPED\n" else .words "KBM_E1000_HHDM_NOT_MAPPED\n"])
      mapped := by
  cases mapped with
  | true => exact (takes_item (takes_words _) (Takes.pure _)).left
  | false =>
    have hwords : Refuses (readWords "KBM_E1000_HHDM_MAPPED\n")
        (LogItem.words "KBM_E1000_HHDM_NOT_MAPPED\n").characters :=
      refuses_expect 15 (by decide : _ = some 77) (by decide : _ = some 78) (by decide)
    exact (takes_item (takes_words _) (Takes.pure _)).right (refuses_item hwords).bind

theorem takes_memory {base hhdmAddress : ℕ} (hbase : base < 2 ^ 64) (hhhdm : hhdmAddress < 2 ^ 64)
    (mapped : Bool) : Takes readMemory (logCharacters (RegionReport.memory base hhdmAddress mapped).items)
      (.memory base hhdmAddress mapped) := by
  unfold readMemory RegionReport.items
  refine takes_item (takes_words _) (takes_item (takes_hex hbase) (takes_item (takes_words _)
    (takes_item (takes_words _) (takes_item (takes_hex hhhdm) (takes_item (takes_words _) ?_)))))
  exact takes_log (takes_mapped mapped) (Takes.pure _)

theorem takes_ports {base : ℕ} (hbase : base < 2 ^ 64) :
    Takes readPorts (logCharacters (RegionReport.ports base).items) (.ports base) := by
  unfold readPorts RegionReport.items
  exact takes_item (takes_words _) (takes_item (takes_hex hbase) (takes_item (takes_words _)
    (Takes.pure _)))

/-- The numbers fit. -/
def RegionReport.Fits : RegionReport → Prop
  | .ports base => base < 2 ^ 64
  | .memory base hhdmAddress _ => base < 2 ^ 64 ∧ hhdmAddress < 2 ^ 64

theorem takes_region {region : RegionReport} (h : region.Fits) :
    Takes (either readMemory readPorts) (logCharacters region.items) region := by
  cases region with
  | ports base =>
    have hwords : Refuses (readWords "KBM_E1000_MMIO_BASE=")
        (LogItem.words "KBM_E1000_IO_BASE=").characters :=
      refuses_expect 10 (by decide : _ = some 77) (by decide : _ = some 73) (by decide)
    exact (takes_ports h).right (refuses_item hwords).bind
  | memory base hhdmAddress mapped => exact (takes_memory h.1 h.2 mapped).left

/-- The numbers fit, and the lines of an E1000 are there for an E1000. -/
structure PciReport.Fits (report : PciReport) : Prop where
  bus : report.bus < 2 ^ 64
  device : report.device < 2 ^ 64
  function : report.function < 2 ^ 64
  vendorId : report.vendorId < 2 ^ 64
  deviceId : report.deviceId < 2 ^ 64
  isE1000 : report.region.isSome = true ↔ report.vendorId = 0x8086 ∧ report.deviceId = 0x100E
  region : ∀ raw region, report.region = some (raw, region) → raw < 2 ^ 64 ∧ region.Fits

/-- **A function's lines are read back.** -/
theorem takes_pciReport {report : PciReport} (h : report.Fits) :
    Takes readPciReport (logCharacters report.items) report := by
  obtain ⟨bus, device, function, vendorId, deviceId, region⟩ := report
  unfold readPciReport PciReport.items
  refine takes_item (takes_words _) (takes_item (takes_hex h.bus) (takes_item (takes_words _)
    (takes_item (takes_hex h.device) (takes_item (takes_words _) (takes_item (takes_hex h.function)
      (takes_item (takes_words _) (takes_item (takes_hex h.vendorId) (takes_item (takes_words _)
        (takes_item (takes_hex h.deviceId) (takes_item (takes_words _) ?_))))))))))
  dsimp only
  rcases region with _ | ⟨raw, region⟩
  · have hother : ¬ (vendorId = 0x8086 ∧ deviceId = 0x100E) := fun heq => by
      cases h.isE1000.2 heq
    rw [if_neg hother]
    exact Takes.pure _
  · obtain ⟨hraw, hregion⟩ := h.region raw region rfl
    rw [if_pos (h.isE1000.1 rfl)]
    refine takes_item (takes_words _) (takes_item (takes_hex hraw) (takes_item (takes_words _) ?_))
    exact takes_log (takes_region hregion) (Takes.pure _)

/-! ## The scan -/

variable {view : PageView} {space : Space} {place : Place} {region : Region}

/-- **A register is read.** -/
theorem pciConfigReadDword_observes (space : Space) (place : Place) (offset : BitVec 8) :
    Observes (pciConfigReadDword place.bus (place.device.setWidth 8) (place.function.setWidth 8) offset)
      space (space place (offset.extractLsb' 2 6)) := by
  have haddress : 0x80000000 ||| place.bus.setWidth 32 <<< 16 |||
      (place.device.setWidth 8).setWidth 32 <<< 11 ||| (place.function.setWidth 8).setWidth 32 <<< 8 |||
        offset.setWidth 32 &&& 0xFC = place.address (offset.extractLsb' 2 6) := by
    unfold Place.address
    apply BitVec.eq_of_getLsbD_eq
    intro i hi
    simp only [BitVec.getLsbD_append, BitVec.getLsbD_or, BitVec.getLsbD_and, BitVec.getLsbD_shiftLeft,
      BitVec.getLsbD_setWidth, BitVec.getLsbD_extractLsb']
    interval_cases i <;> simp
  intro address
  refine ⟨place.address (offset.extractLsb' 2 6), ?_⟩
  have hread := readData_address place (offset.extractLsb' 2 6) ⟨address, space⟩
  unfold pciConfigReadDword
  rw [haddress]
  exact congrArg (·, _) hread

/-- **The lines about an E1000** report its region. -/
theorem pciDebugE1000_observes (h : region.HeldBy (space place 4) (space place 5)) :
    Observes (pciDebugE1000 view place.bus (place.device.setWidth 8) (place.function.setWidth 8)) space
      ([.words "KBM_E1000_BAR0_RAW=", .hex (space place 4).toNat, .words "\n"] ++
        (regionReport view region).items) := by
  refine (pciConfigReadDword_observes space place 0x10).bind ?_
  have hregister : (0x10 : BitVec 8).extractLsb' 2 6 = 4 := by decide
  rw [hregister]
  dsimp only
  cases region with
  | ports port =>
    obtain ⟨hports, hbase⟩ := Region.ports_register port
    have hlow : space place 4 = (Region.ports port).register := h
    have hnumber : (space place 4 &&& 0xFFFFFFFC).toNat = (Region.ports port).base.toNat := by
      rw [← hbase, hlow, BitVec.toNat_setWidth]
      exact (Nat.mod_eq_of_lt (by omega)).symm
    rw [if_neg (by rw [hlow]; exact hports), hnumber]
    exact Observes.pure _ space
  | memory32 base prefetchable =>
    obtain ⟨hmemory, hwidth, hbase⟩ := Region.memory32_register base prefetchable
    have hlow : space place 4 = (Region.memory32 base prefetchable).register := h
    rw [if_pos (by rw [hlow]; exact hmemory), if_neg (by rw [hlow, hwidth]; decide)]
    have hnumber : (space place 4 &&& 0xFFFFFFF0).setWidth 64 =
        (Region.memory32 base prefetchable).base := by
      rw [hlow]
      exact hbase
    refine (Observes.pure _ space).bind ?_
    rw [hnumber, pagingIsMapped_eq]
    exact Observes.pure _ space
  | memory64 base prefetchable =>
    obtain ⟨hmemory, hwidth, hbase⟩ := Region.memory64_register base prefetchable
    obtain ⟨hlow, hhigh⟩ : space place 4 = (Region.memory64 base prefetchable).register ∧
      space place 5 = base.extractLsb' 28 32 := h
    have hregister' : (0x14 : BitVec 8).extractLsb' 2 6 = 5 := by decide
    have hnumber : (space place 4 &&& 0xFFFFFFF0).setWidth 64 |||
        (space place ((0x14 : BitVec 8).extractLsb' 2 6)).setWidth 64 <<< 32 =
          (Region.memory64 base prefetchable).base := by
      rw [hregister', hlow, hhigh]
      exact hbase
    rw [if_pos (by rw [hlow]; exact hmemory), if_pos (by rw [hlow]; exact hwidth)]
    refine (pciConfigReadDword_observes space place 0x14).bind ((Observes.pure _ space).bind ?_)
    rw [hnumber, pagingIsMapped_eq]
    exact Observes.pure _ space

/-- **The lines about a function** are its report's. -/
theorem pciDebugFunction_observes {regions : Place → Region}
    (h : IsE1000 space place → (regions place).HeldBy (space place 4) (space place 5)) :
    Observes (pciDebugFunction view place.bus (place.device.setWidth 8) (place.function.setWidth 8))
      space (if vendorOf space place = 0xFFFF then []
        else (pciReport view space regions place).items) := by
  refine (pciConfigReadDword_observes space place 0).bind ?_
  have hregister : (0 : BitVec 8).extractLsb' 2 6 = 0 := by decide
  have hvendor : (space place 0 &&& 0xFFFF).setWidth 16 = vendorOf space place := by
    unfold vendorOf
    apply BitVec.eq_of_getLsbD_eq
    intro i hi
    simp only [BitVec.getLsbD_and, BitVec.getLsbD_setWidth, BitVec.getLsbD_extractLsb']
    interval_cases i <;> simp
  have hdevice : (space place 0 >>> 16).setWidth 16 = deviceOf space place := by
    unfold deviceOf
    apply BitVec.eq_of_getLsbD_eq
    intro i hi
    simp only [BitVec.getLsbD_ushiftRight, BitVec.getLsbD_setWidth, BitVec.getLsbD_extractLsb']
  rw [hregister]
  dsimp only
  rw [hvendor, hdevice]
  by_cases habsent : vendorOf space place = 0xFFFF
  · rw [if_pos habsent, if_pos habsent]
    exact Observes.pure [] space
  have hnarrow : (place.device.setWidth 8).toNat = place.device.toNat ∧
      (place.function.setWidth 8).toNat = place.function.toNat := by
    rw [BitVec.toNat_setWidth, BitVec.toNat_setWidth]
    exact ⟨Nat.mod_eq_of_lt (by omega), Nat.mod_eq_of_lt (by omega)⟩
  rw [if_neg habsent, if_neg habsent, hnarrow.1, hnarrow.2]
  unfold pciReport PciReport.items
  dsimp only
  by_cases hE1000 : IsE1000 space place
  · rw [if_pos hE1000, if_pos ⟨hE1000.1, hE1000.2⟩]
    exact (pciDebugE1000_observes (h hE1000)).bind (Observes.pure _ space)
  · rw [if_neg hE1000, if_neg fun heq => hE1000 ⟨heq.1, heq.2⟩]
    exact Observes.pure _ space

/-- A list is filtered by leaving out. -/
theorem flatMap_filter {α β : Type} (p : α → Bool) (f : α → List β) (l : List α) :
    (l.filter p).flatMap f = l.flatMap fun a => if p a then f a else [] := by
  induction l with
  | nil => rfl
  | cons a l ih =>
    rw [List.flatMap_cons, ← ih, List.filter_cons]
    split
    · rw [List.flatMap_cons]
    · rfl

/-- **The scan goes through the bus**, and logs the reports of what is
there. -/
theorem pciDebugScanBus_observes {regions : Place → Region} (bus : BitVec 8)
    (h : ∀ place, place.bus = bus → IsE1000 space place →
      (regions place).HeldBy (space place 4) (space place 5)) :
    Observes (pciDebugScanBus view bus) space
      (((places bus).filter fun place => vendorOf space place ≠ 0xFFFF).flatMap fun place =>
        (pciReport view space regions place).items) := by
  obtain ⟨lines, hlines⟩ : ∃ lines : Place → List LogItem, lines = fun place =>
      if vendorOf space place = 0xFFFF then [] else (pciReport view space regions place).items :=
    ⟨_, rfl⟩
  have hwiden : ∀ device < 32, ∀ function < 8,
      Observes (pciDebugFunction view bus (BitVec.ofNat 8 device) (BitVec.ofNat 8 function)) space
        (lines ⟨bus, BitVec.ofNat 5 device, BitVec.ofNat 3 function⟩) := by
    intro device hdevice function hfunction
    have hfive : BitVec.ofNat 8 device = (BitVec.ofNat 5 device).setWidth 8 := by
      apply BitVec.eq_of_toNat_eq
      rw [BitVec.toNat_setWidth, BitVec.toNat_ofNat, BitVec.toNat_ofNat]
      omega
    have hthree : BitVec.ofNat 8 function = (BitVec.ofNat 3 function).setWidth 8 := by
      apply BitVec.eq_of_toNat_eq
      rw [BitVec.toNat_setWidth, BitVec.toNat_ofNat, BitVec.toNat_ofNat]
      omega
    have hplace := @pciDebugFunction_observes view space
      ⟨bus, BitVec.ofNat 5 device, BitVec.ofNat 3 function⟩ regions (h _ rfl)
    rw [hfive, hthree, hlines]
    exact hplace
  have hall : ((places bus).filter fun place => vendorOf space place ≠ 0xFFFF).flatMap
      (fun place => (pciReport view space regions place).items) = (List.range 32).flatMap fun device =>
        (List.range 8).flatMap fun function =>
          lines ⟨bus, BitVec.ofNat 5 device, BitVec.ofNat 3 function⟩ := by
    rw [flatMap_filter]
    unfold places
    rw [List.flatMap_assoc]
    refine List.flatMap_congr fun device _ => ?_
    rw [List.flatMap_map, hlines]
    refine List.flatMap_congr fun function _ => ?_
    simp only [decide_eq_true_eq, ne_eq, ite_not]
  rw [hall]
  exact Observes.grid fun device hdevice function hfunction =>
    hwiden device (List.mem_range.1 hdevice) function (List.mem_range.1 hfunction)

theorem pciReport_fits (view : PageView) (space : Space) (regions : Place → Region) (place : Place) :
    (pciReport view space regions place).Fits where
  bus := lt_trans place.bus.isLt (by decide)
  device := lt_trans place.device.isLt (by decide)
  function := lt_trans place.function.isLt (by decide)
  vendorId := lt_trans (vendorOf space place).isLt (by decide)
  deviceId := lt_trans (deviceOf space place).isLt (by decide)
  isE1000 := by
    have hids : IsE1000 space place ↔
        (vendorOf space place).toNat = 0x8086 ∧ (deviceOf space place).toNat = 0x100E :=
      and_congr (BitVec.toNat_inj (y := 0x8086#16)).symm (BitVec.toNat_inj (y := 0x100E#16)).symm
    unfold pciReport
    dsimp only
    rw [← hids]
    split
    · next hE1000 => exact ⟨fun _ => hE1000, fun _ => rfl⟩
    · next hother => exact ⟨nofun, fun hE1000 => absurd hE1000 hother⟩
  region raw region hregion := by
    unfold pciReport at hregion
    dsimp only at hregion
    split at hregion
    · cases hregion
      refine ⟨lt_trans (space place 4).isLt (by decide), ?_⟩
      cases regions place with
      | ports port => exact BitVec.isLt _
      | memory32 base prefetchable => exact ⟨BitVec.isLt _, BitVec.isLt _⟩
      | memory64 base prefetchable => exact ⟨BitVec.isLt _, BitVec.isLt _⟩
    · cases hregion

/-- **The scan's log can be read back.** For every configuration space, with
any regions behind the base address registers of the E1000s: the scan
changes no register, and what it logs reads as exactly the functions that
are there, each once and in order, with the vendor and the device they name;
of each E1000 it gives the region its registers stand for, and where that
is memory whether the processor's walk of its HHDM address finds a page. -/
theorem pci_scan_read_back (view : PageView) (bus : BitVec 8) (m : Mechanism)
    (regions : Place → Region) (h : ∀ place, place.bus = bus → IsE1000 m.space place →
      (regions place).HeldBy (m.space place 4) (m.space place 5)) : ∃ log m', ∃ found : List Place,
      pciDebugScanBus view bus m = (log, m') ∧ m'.space = m.space ∧
      found.Pairwise (fun p q : Place => p.number < q.number) ∧
      (∀ place, place ∈ found ↔ place.bus = bus ∧ vendorOf m.space place ≠ 0xFFFF) ∧
      readText readPciReport (logCharacters log) =
        some (found.map (pciReport view m.space regions)) := by
  obtain ⟨address, hscan⟩ := @pciDebugScanBus_observes view _ _ bus h m.address
  refine ⟨_, _, (places bus).filter fun place => vendorOf m.space place ≠ 0xFFFF, hscan, rfl,
    (pairwise_places bus).filter _, fun place => ?_, ?_⟩
  · rw [List.mem_filter, mem_places]
    exact and_congr_right fun _ => decide_eq_true_iff
  · rw [← List.flatMap_map]
    refine readText_items (fun report hreport => ?_) fun report =>
      List.append_ne_nil_of_left_ne_nil (by decide) _
    obtain ⟨place, -, rfl⟩ := List.mem_map.1 hreport
    exact takes_pciReport (pciReport_fits view m.space regions place)

/-- An E1000 in slot 3, with its registers in memory above 4 GiB. -/
def e1000Space : Space := fun place register =>
  if place = ⟨0, 3, 0⟩ then
    if register = 0 then 0x100E8086
    else if register = 4 then 0xFEBC000C
    else if register = 5 then 0x1
    else 0
  else BitVec.allOnes 32

/-- A machine without page tables. -/
def emptyView : PageView where
  memory _ := 0
  cr3 := 0
  hhdmOffset := 0xffff800000000000

theorem isE1000_e1000Space {place : Place} (h : IsE1000 e1000Space place) : place = ⟨0, 3, 0⟩ := by
  by_contra hother
  have hvendor : vendorOf e1000Space place = 0xFFFF := by
    unfold vendorOf e1000Space
    rw [if_neg hother]
    decide
  rw [h.1] at hvendor
  cases hvendor

theorem pci_scan_read_back_e1000Space : ∃ log m', ∃ found : List Place,
    pciDebugScanBus emptyView 0 ⟨0, e1000Space⟩ = (log, m') ∧
      readText readPciReport (logCharacters log) = some (found.map (pciReport emptyView e1000Space
        fun _ => .memory64 0x1FEBC000 true)) := by
  obtain ⟨log, m', found, hscan, -, -, -, hread⟩ := pci_scan_read_back emptyView 0 ⟨0, e1000Space⟩
    (fun _ => .memory64 0x1FEBC000 true) (fun place _ hE1000 => by
      rw [isE1000_e1000Space hE1000]
      exact ⟨by decide, by decide⟩)
  exact ⟨log, m', found, hscan, hread⟩

end KbmOs
