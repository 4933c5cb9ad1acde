import DroneMini.Lib.Flt
import DroneMini.Lib.FltRat
import DroneMini.Lib.FltExact
import DroneMini.Lib.FltReal
import DroneMini.Lib.FltRound
import DroneMini.Lib.FltMax
import DroneMini.Lib.RoundHalfEven
import DroneMini.Lib.While
import DroneMini.Lib.Checked
import DroneMini.Lib.Descent
import DroneMini.Lib.Run
import DroneMini.Lib.Until
import DroneMini.Lib.Duplex
import DroneMini.Lib.Framing
import DroneMini.Lib.BitPack
import DroneMini.Lib.LittleEndian
import DroneMini.Lib.Crc
import DroneMini.Lib.Struct
import DroneMini.Lib.Text
import DroneMini.Lib.Debounce
import DroneMini.Lib.Tally
import DroneMini.Lib.Shift
import DroneMini.Lib.Arc
import DroneMini.Lib.Rk4Lag
import DroneMini.Flight.ControlLoop
import DroneMini.Flight.Mirror
import DroneMini.Flight.Desaturate
import DroneMini.Flight.AxisSigns
import DroneMini.Flight.PidState
import DroneMini.Flight.Calibration
import DroneMini.Flight.Fusion
import DroneMini.Flight.WrapLoops
import DroneMini.Flight.IntCounters
import DroneMini.Plant.Rc
import DroneMini.Plant.SilProto
import DroneMini.Plant.Vehicle
import DroneMini.Plant.Feedback
import DroneMini.Plant.StaticAttitude
import DroneMini.Plant.Rotors
import DroneMini.Plant.Ground
import DroneMini.Plant.Heading
import DroneMini.Plant.Battery
import DroneMini.Plant.Log
import DroneMini.Plant.AbortMark
import DroneMini.Plant.LogFile
import DroneMini.Plant.TornLog
import DroneMini.Plant.CompareLogs
import DroneMini.Plant.GateTwins
import DroneMini.Sbus.Chunking
import DroneMini.Sbus.Encode
import DroneMini.Sbus.Phantom
import DroneMini.Sbus.Codec
import DroneMini.Sbus.Quantise
import DroneMini.Plant.Scenario
import DroneMini.Failsafe.Invariant
import DroneMini.Failsafe.Latch
import DroneMini.Failsafe.Reason
import DroneMini.Failsafe.History
import DroneMini.Loop.Step
import DroneMini.Loop.Latch
import DroneMini.Loop.Link
import DroneMini.Loop.Arming
import DroneMini.Loop.Isolation
import DroneMini.Loop.RxFlag
import DroneMini.Loop.ImuJudges
import DroneMini.Loop.Attitude
import DroneMini.Loop.Sticks
import DroneMini.Loop.Yaw
import DroneMini.Loop.Calibration
import DroneMini.Loop.Counters
import DroneMini.Loop.FrameLost
import DroneMini.Hal.Framing
import DroneMini.Hal.RoundTrip
import DroneMini.Hal.Corrupt
import DroneMini.Hal.Codec
import DroneMini.Hal.Sil
import DroneMini.Hal.Hello
import DroneMini.Plant.Runner
import DroneMini.Plant.Exit
import DroneMini.Plant.Simulator
import DroneMini.Plant.Complete
import DroneMini.Sim.Runner
import DroneMini.Sim.Gate
import DroneMini.Sim.LinkLoss
import DroneMini.Sim.Replay
import DroneMini.Sim.Accounting
import DroneMini.Sim.Main
import DroneMini.Sim.Handshake
import DroneMini.Sim.ClosedLoop
import DroneMini.Sim.Session
import DroneMini.Sim.Programs
import DroneMini.Sim.FaultLog
import DroneMini.Sim.ArmingLog
import DroneMini.Sim.ScenarioLog
import DroneMini.Sim.FrameLost
import DroneMini.Sim.Craft
import DroneMini.Sim.Heading
import DroneMini.Sim.SessionFile
import DroneMini.Sim.StatusLog
