import ImxTest.Lib.Run
import ImxTest.Lib.Watch
import ImxTest.Lib.MarkerSplit
import ImxTest.Lib.ByteMem
import ImxTest.Lib.LittleEndian
import ImxTest.Lib.Session
import ImxTest.Lib.TwoRuns
import ImxTest.Lib.BitGroups
import ImxTest.Lib.XorLinear
import ImxTest.Lib.CString
import ImxTest.Lib.Exits
import ImxTest.Lib.FrameTurn
import ImxTest.Lib.Scatter
import ImxTest.Lib.Traced
import ImxTest.Lib.Ledger
import ImxTest.Lib.Tokens
import ImxTest.Lib.ForLoop
import ImxTest.Lib.BitField
import ImxTest.Vpu.Basic
import ImxTest.Vpu.BufQueue
import ImxTest.Vpu.FillBsbuffer
import ImxTest.Vpu.FillBounds
import ImxTest.Vpu.RingDrain
import ImxTest.Vpu.Ownership
import ImxTest.Vpu.DisplayTurn
import ImxTest.Vpu.V4lDisplay
import ImxTest.Vpu.DisplayClient
import ImxTest.Vpu.DecoderDisplay
import ImxTest.Vpu.RecycleDisplay
import ImxTest.Vpu.RecyclePerformance
import ImxTest.Vpu.AndroidDisplay
import ImxTest.Vpu.HandOff
import ImxTest.Vpu.IpuDisplay
import ImxTest.Vpu.IpuControl
import ImxTest.Vpu.IpuFrames
import ImxTest.Vpu.IpuDecoder
import ImxTest.Vpu.Mjpg
import ImxTest.Vpu.MjpgBounds
import ImxTest.Vpu.Udp
import ImxTest.Vpu.UdpStream
import ImxTest.Vpu.UdpGap
import ImxTest.Vpu.UdpBounds
import ImxTest.Vpu.EncoderNet
import ImxTest.Vpu.Streaming
import ImxTest.Vpu.Loopback
import ImxTest.Vpu.Transcode
import ImxTest.Vpu.TranscodeTest
import ImxTest.Vpu.TranscodeSource
import ImxTest.Vpu.Buffers
import ImxTest.Vpu.DecodeTest
import ImxTest.Vpu.EncodeTest
import ImxTest.Vpu.EncdecTest
import ImxTest.Vpu.ParseOptions
import ImxTest.Vpu.ConfigFile
import ImxTest.Vpu.GetArg
import ImxTest.Vpu.CropRect
import ImxTest.Vpu.Ratio
import ImxTest.Vpu.TiledFramebuf
import ImxTest.Vpu.ReadFile
import ImxTest.Vpu.SaveFile
import ImxTest.Vpu.RawVideo
import ImxTest.Vpu.QpReport
import ImxTest.Etm.Formatter
import ImxTest.Etm.Decoder
import ImxTest.Etm.Numbers
import ImxTest.Etm.Lockstep
import ImxTest.Etm.ValidMask
import ImxTest.Etm.BranchAddr
import ImxTest.Etm.Async
import ImxTest.Etm.Sync
import ImxTest.Etm.Trace
import ImxTest.Etm.Packets
import ImxTest.Etm.Encoding
import ImxTest.Etm.Objdump
import ImxTest.Etm.Replay
import ImxTest.Dcic.Crc
import ImxTest.Dcic.Regions
import ImxTest.Memtool.Window
import ImxTest.Memtool.FieldWrite
import ImxTest.Memtool.RegisterWrite
import ImxTest.Memtool.CommandLine
import ImxTest.Memtool.MainWindow
import ImxTest.Memtool.Completion
import ImxTest.Memtool.ReadBack
import ImxTest.Asrc.OutputSize
import ImxTest.Asrc.WaveFile
import ImxTest.Asrc.ParserEnds
import ImxTest.Asrc.SampleLoops
import ImxTest.Asrc.HeaderBounds
import ImxTest.Asrc.ConvertedHeader
import ImxTest.Uart.Stress
import ImxTest.Uart.ReadResults
import ImxTest.Spi.Loopback
import ImxTest.L2switch.Arguments
import ImxTest.L2switch.Missing
import ImxTest.L2switch.Settings
import ImxTest.L2switch.MacAddress
import ImxTest.Ipudev.CommandInput
