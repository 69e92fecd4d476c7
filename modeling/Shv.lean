import Shv.Lib.ByteMem
import Shv.Bitfield
import Shv.Hpt
import Shv.Hptw
import Shv.HptSpec
import Shv.Lib.Radix
import Shv.Lib.Chunk
import Shv.Walk
import Shv.WalkAgree
import Shv.Region
import Shv.Insert
import Shv.InsertAgree
import Shv.Bulk
import Shv.Ept
import Shv.EptPool
import Shv.Mtrr
import Shv.Nmi.Recorder
import Shv.EptMap
import Shv.EptBuild
import Shv.EptRun
import Shv.Lib.Trace
import Shv.EptTlb
import Shv.GuestEpt
import Shv.Lib.Leads
import Shv.Nmi.Machine
import Shv.Nmi.Experiments
import Shv.Nmi.Compose
import Shv.Nmi.Timer
import Shv.Lib.Smp
import Shv.Spinlock
import Shv.Pal
import Shv.GuestMain
import Shv.Idt
import Shv.Lib.PageWalk
import Shv.Paging
import Shv.PagingRows
import Shv.PagingAmd64
import Shv.PagingI386
import Shv.PagingAgree
import Shv.VmcsFields
import Shv.Vmcs
import Shv.Vmxoff
import Shv.Printf
import Shv.Lib.BitPut
import Shv.HptFields
import Shv.HptCodec
import Shv.SetProt
import Shv.Lib.CText
import Shv.Lib.Assign
import Shv.Strtoul
import Shv.Cmdline
import Shv.Lib.Loop
import Shv.Madt
import Shv.AcpiSearch
import Shv.Vmexit
import Shv.Lib.Bitmap
import Shv.MsrBitmap
import Shv.MsrLs
import Shv.Bitfield32
import Shv.TimerInit
import Shv.DebugVga
import Shv.IdtAsm
import Shv.Lib.Reader
import Shv.Stdio
import Shv.StdioNumber
import Shv.StdioScreen
import Shv.Lib.Confined
import Shv.VgaArt
import Shv.Lib.WordList
import Shv.StubAsm
