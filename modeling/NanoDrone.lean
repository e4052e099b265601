import NanoDrone.Kve.Kve
import NanoDrone.Kve.Layout
import NanoDrone.Kve.Table
import NanoDrone.Kve.Scan
import NanoDrone.Kve.Defrag
import NanoDrone.Kve.Operations
import NanoDrone.Kve.KeyMap
import NanoDrone.Kve.FailedStore
import NanoDrone.Eeprom.Device
import NanoDrone.Kve.Storage
import NanoDrone.Eeprom.Eeprom
import NanoDrone.Eeprom.ConfigBlock
import NanoDrone.Lib.Interleaving
import NanoDrone.Lib.MsgQueue
import NanoDrone.Commander.Commander
import NanoDrone.Commander.Races
import NanoDrone.Commander.Watchdog
import NanoDrone.Crtp.Crtp
import NanoDrone.Crtp.RxTask
import NanoDrone.Lib.LinkedList
import NanoDrone.Log.Log
import NanoDrone.Log.OpsPool
import NanoDrone.Log.Control
import NanoDrone.Log.RunBlock
import NanoDrone.Log.Worker
import NanoDrone.Commander.SetRaces
import NanoDrone.Commander.Arbiter
import NanoDrone.Crtp.SharedBuffer
import NanoDrone.Crtp.TxTask
import NanoDrone.HighLevel.TrajectoryMemory
import NanoDrone.HighLevel.Trajectories
import NanoDrone.Radio.Radiolink
import NanoDrone.Console.Console
import NanoDrone.Log.Toc
import NanoDrone.Log.LogPacket
import NanoDrone.Kve.Contents
import NanoDrone.Log.Answers
import NanoDrone.Kve.Chain
import NanoDrone.Kve.Oversize
import NanoDrone.Kve.Foreach
import NanoDrone.Kve.Stats
import NanoDrone.Kve.AnyContent
import NanoDrone.Kve.Checked
import NanoDrone.Kve.MirrorDevice
import NanoDrone.Kve.Faults
import NanoDrone.Log.Accesses
import NanoDrone.Log.TypeTable
import NanoDrone.Eeprom.ConfigDamage
import NanoDrone.Log.TocHash
import NanoDrone.Commander.Release
import NanoDrone.Eeprom.PageWrites
import NanoDrone.Crtp.AppChannel
import NanoDrone.Lib.Semaphore
import NanoDrone.Console.Semaphore
import NanoDrone.HighLevel.StartTrajectory
import NanoDrone.HighLevel.Finished
import NanoDrone.HighLevel.TakeoffLand
import NanoDrone.Controller.ControllerPid
import NanoDrone.Kve.TableStats
import NanoDrone.Log.VarId
import NanoDrone.Radio.SendReceive
import NanoDrone.Kve.MoveMemory
import NanoDrone.Log.Dropped
import NanoDrone.Log.FloatValue
import NanoDrone.QueueMonitor.QueueMonitor
import NanoDrone.Eeprom.MemHandlers
import NanoDrone.Controller.Shutdown
import NanoDrone.Kve.AppendFailure
import NanoDrone.Crtp.CrtpCommander
import NanoDrone.Eeprom.Twim
import NanoDrone.Eeprom.TwimBus
import NanoDrone.HighLevel.Commands
import NanoDrone.HighLevel.Handover
import NanoDrone.HighLevel.Refinement
import NanoDrone.Lib.Wire
import NanoDrone.Log.Download
import NanoDrone.Log.Images
import NanoDrone.Log.Subscribe
import NanoDrone.Console.Delivery
import NanoDrone.Eeprom.Boot
