import ChipEight.CommandLine.Lister
import ChipEight.CommandLine.Runner
import ChipEight.Screen.Png
import ChipEight.Main
import ChipEight.Roster
import ChipEight.Proofs.StackFaults
import ChipEight.Proofs.OpenCalls
import ChipEight.Proofs.MemoryEffects
import ChipEight.Proofs.Unbounded.Bounds
import ChipEight.Proofs.Disassembly
import ChipEight.Proofs.DialectIndependence
import ChipEight.Proofs.TickRate
import ChipEight.Proofs.InstanceRequests
import ChipEight.Proofs.HaltHint
import ChipEight.Proofs.RosterNumbers
import ChipEight.Proofs.EarlyEnd
import ChipEight.Proofs.SeparateResidents
import ChipEight.Proofs.InstanceActions
import ChipEight.Proofs.Loading
import ChipEight.Proofs.Reloading
import ChipEight.Proofs.InstructionLog
import ChipEight.Proofs.Cadence
import ChipEight.Proofs.Observations
import ChipEight.Proofs.RateIndependence
import ChipEight.Proofs.RandomBytes
import ChipEight.Proofs.Redraw
import ChipEight.Proofs.SpriteDrawing
import ChipEight.Proofs.Console
import ChipEight.Proofs.DebugSwitch
import ChipEight.Proofs.DrawingOrder
import ChipEight.Proofs.Arithmetic
import ChipEight.Proofs.NextAddress
import ChipEight.Proofs.PlainSlots
import ChipEight.Proofs.RegisterBlocks
import ChipEight.Proofs.Footprints
import ChipEight.Proofs.KeyWaits
import ChipEight.Proofs.MemoryMap
import ChipEight.Proofs.ListingText
import ChipEight.Proofs.TickPeriods
import ChipEight.Proofs.Pictures
