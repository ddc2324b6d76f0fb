import KbmOs.Lib.Bytes
import KbmOs.Lib.Bitmap
import KbmOs.Lib.Tiling
import KbmOs.Lib.LinkedList
import KbmOs.Kernel
import KbmOs.Pmm.Model
import KbmOs.Pmm.Table
import KbmOs.Pmm.Map
import KbmOs.Pmm.Init
import KbmOs.Pmm.Run
import KbmOs.Heap.Layout
import KbmOs.Heap.Steps
import KbmOs.Heap.Calls
import KbmOs.Lib.Runs
import KbmOs.Memory.System
import KbmOs.Memory.Invariant
import KbmOs.Memory.Events
import KbmOs.Memory.Isolation
import KbmOs.Memory.Requests
import KbmOs.Memory.Coalescing
import KbmOs.Memory.StaleFrees
import KbmOs.Lib.Raster
import KbmOs.Screen.Model
import KbmOs.Screen.Painting
import KbmOs.Console.Font
import KbmOs.Console.Model
import KbmOs.Console.Effects
import KbmOs.Lib.Terminal
import KbmOs.Console.Refinement
import KbmOs.Shell.Model
import KbmOs.Shell.Line
import KbmOs.Shell.Session
import KbmOs.Mouse.Model
import KbmOs.Mouse.Overlay
import KbmOs.Desktop.Cursor
import KbmOs.Lib.TableWalk
import KbmOs.Paging.Walk
import KbmOs.Paging.Model
import KbmOs.Paging.Agreement
import KbmOs.Paging.Lapic
import KbmOs.Mouse.Movement
import KbmOs.Pmm.Ranges
import KbmOs.Pmm.Accounting
import KbmOs.Memory.Accounting
import KbmOs.Memory.FirstFit
import KbmOs.Memory.RoundTrip
import KbmOs.Lib.BlockEnds
import KbmOs.Memory.FreeOrder
import KbmOs.Mouse.Shown
import KbmOs.Screen.Accesses
import KbmOs.Screen.Exact
import KbmOs.Lib.Copying
import KbmOs.Routines
import KbmOs.Console.Numbers
import KbmOs.Console.Text
import KbmOs.Console.Utf8
import KbmOs.Desktop.Shift
import KbmOs.Shell.Accesses
import KbmOs.Shell.Dispatch
import KbmOs.Interrupts.Model
import KbmOs.Interrupts.Transparency
import KbmOs.Lib.Outcomes
import KbmOs.Memory.SelfTest
import KbmOs.Interrupts.Pic
import KbmOs.Lib.Fields
import KbmOs.Memory.BootState
import KbmOs.Interrupts.Apart
import KbmOs.Interrupts.Progress
import KbmOs.Interrupts.Strays
import KbmOs.Lib.Uart16550
import KbmOs.SerialPort
import KbmOs.Interrupts.Log
import KbmOs.Lib.PciConfig
import KbmOs.Pci
import KbmOs.Console.Header
import KbmOs.Desktop.Picture
import KbmOs.Interrupts.Screen
import KbmOs.Interrupts.Typing
import KbmOs.Interrupts.BootWait
import KbmOs.Lib.Pit8254
import KbmOs.Interrupts.Uptime
import KbmOs.Paging.Debug
import KbmOs.Reboot
import KbmOs.Interrupts.Boot
