import ProjectSensor.Library.LinkedRing
import ProjectSensor.Library.RingHeap
import ProjectSensor.Library.RingLoop
import ProjectSensor.Library.Transition
import ProjectSensor.Library.SlotBitmap
import ProjectSensor.Library.ByteMemory
import ProjectSensor.Library.Traced
import ProjectSensor.Library.WrappedTime
import ProjectSensor.Library.RingQueue
import ProjectSensor.Library.WriteBehind
import ProjectSensor.Library.CyclicCode
import ProjectSensor.Library.PieceTransfer
import ProjectSensor.Library.PiecewiseLinear
import ProjectSensor.Library.Gregorian
import ProjectSensor.Library.TrimmedMean
import ProjectSensor.Library.Numeral
import ProjectSensor.Library.Ascii
import ProjectSensor.Library.Timetable
import ProjectSensor.Api.Crc16
import ProjectSensor.Api.CrcRegister
import ProjectSensor.Api.CrcBitwise
import ProjectSensor.Api.BufQueue
import ProjectSensor.Api.BufQueueRam
import ProjectSensor.Api.Timestamp
import ProjectSensor.Api.Calendar
import ProjectSensor.Api.CircularBuffer
import ProjectSensor.Api.Itoa
import ProjectSensor.Api.CalendarOrder
import ProjectSensor.Api.Strptime
import ProjectSensor.Api.StrptimeRoundTrip
import ProjectSensor.Api.Asctime
import ProjectSensor.Api.LogStream
import ProjectSensor.Api.Log
import ProjectSensor.Bsp.CpuUart
import ProjectSensor.Bsp.ReceivePath
import ProjectSensor.Bsp.Storage
import ProjectSensor.Bsp.PageTransfers
import ProjectSensor.Bsp.Pwm
import ProjectSensor.Bsp.CpuIic
import ProjectSensor.Bsp.Hal
import ProjectSensor.Bsp.InitOnce
import ProjectSensor.Bsp.DeviceManager
import ProjectSensor.Bsp.Transmit
import ProjectSensor.Service.LinkedList
import ProjectSensor.Service.ListSequences
import ProjectSensor.Service.Buffer
import ProjectSensor.Service.ByteQueue
import ProjectSensor.Service.Event
import ProjectSensor.Service.Timer
import ProjectSensor.Service.TimerLists
import ProjectSensor.Service.TimerRun
import ProjectSensor.Service.HardTimer
import ProjectSensor.Service.HardTimerRun
import ProjectSensor.Service.TimerEdits
import ProjectSensor.Service.TimedLists
import ProjectSensor.Service.TimerLoop
import ProjectSensor.Service.TimerLoopRun
import ProjectSensor.Service.TimersOnTime
import ProjectSensor.Service.Delays
import ProjectSensor.Service.WallTime
import ProjectSensor.Service.ListPass
import ProjectSensor.Reactor.EventLoop
import ProjectSensor.Reactor.EventPool
import ProjectSensor.Reactor.EventRun
import ProjectSensor.Reactor.WakeUp
import ProjectSensor.Reactor.PostingOrder
import ProjectSensor.Reactor.Poller
import ProjectSensor.Reactor.HandleEvent
import ProjectSensor.Reactor.ChannelLoop
import ProjectSensor.Reactor.ChannelSchedule
import ProjectSensor.Reactor.TimerQueue
import ProjectSensor.App.Datum
import ProjectSensor.App.RegisterLaws
import ProjectSensor.App.Modbus
import ProjectSensor.App.PackageHandler
import ProjectSensor.App.RegisterWrite
import ProjectSensor.App.RejectedWrite
import ProjectSensor.App.WriteMultiple
import ProjectSensor.App.Commu
import ProjectSensor.App.FrameBounds
import ProjectSensor.App.FrameErrors
import ProjectSensor.App.ReceiveDrain
import ProjectSensor.App.Responses
import ProjectSensor.App.RegisterRead
import ProjectSensor.App.ValidResponses
import ProjectSensor.App.WellFormedRequest
import ProjectSensor.App.InPlace
import ProjectSensor.App.Measure
import ProjectSensor.App.SampleSource
import ProjectSensor.App.CalibrationRecords
import ProjectSensor.App.RequestEffect
import ProjectSensor.App.DatumLoad
import ProjectSensor.App.Application
import ProjectSensor.App.Saves
import ProjectSensor.App.SaveRefinement
import ProjectSensor.App.Persistence
import ProjectSensor.App.SaveEvents
import ProjectSensor.App.SaveResult
import ProjectSensor.App.LoadResult
import ProjectSensor.App.LoadReport
import ProjectSensor.App.Algorithm
import ProjectSensor.App.PressureTable
import ProjectSensor.App.AdFilter
import ProjectSensor.App.MovingMean
import ProjectSensor.App.SampleValues
import ProjectSensor.App.Devices
import ProjectSensor.App.LogTime
import ProjectSensor.App.CalibrationTimer
import ProjectSensor.App.CalibrationTimetable
