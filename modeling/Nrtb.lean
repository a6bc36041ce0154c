import Nrtb.SimCore.PacketIndices
import Nrtb.SimCore.Messages
import Nrtb.SimCore.Sweep
import Nrtb.SimCore.Pacing
import Nrtb.SimCore.Separation
import Nrtb.BaseObject
import Nrtb.BcpServer
import Nrtb.Sockets.Framing
import Nrtb.Sockets.Deadline
import Nrtb.Sockets.Put
import Nrtb.Sockets.Factory
import Nrtb.ConfReader.CommandLine
import Nrtb.QueueThreads
import Nrtb.SimCore.Lifecycle
import Nrtb.SimCore.Barrier
import Nrtb.SimCore.Panopticon
import Nrtb.SimCore.TurnLocks
import Nrtb.BotMk1.TurnLock
import Nrtb.BotMk1.Replies
import Nrtb.BotMk1.Collision
import Nrtb.BotMk1.LinkDeath
import Nrtb.BotMk1.Notifications
import Nrtb.BaseObject.Motion
import Nrtb.Common.Hex
import Nrtb.Triad.Text
import Nrtb.ConfReader.Includes
import Nrtb.ConfReader.Typed
import Nrtb.BaseObject.Hover
import Nrtb.DiffSteer.Settings
import Nrtb.DiffSteer.Braking
import Nrtb.DiffSteer.Skid
import Nrtb.Common.Sql
import Nrtb.BaseObject.Divisors
import Nrtb.BaseObject.Registry
import Nrtb.BotMk1.Autopilot
import Nrtb.BotMk1.Clone
import Nrtb.Radar
import Nrtb.QueueWakeups
import Nrtb.LogLines
import Nrtb.RunId
import Nrtb.Common.Strings
import Nrtb.Common.HexRounds
import Nrtb.ConfReader.Comments
import Nrtb.Sockets.AddressText
import Nrtb.SimCore.TurnResult
import Nrtb.SimCore.Impacts
import Nrtb.BotMk1.Interpreter
import Nrtb.Bcp.Target
import Nrtb.Bcp.Kamikaze
import Nrtb.OutputWriter.Shutdown
import Nrtb.Singleton
import Nrtb.Rotatable
import Nrtb.Sockets.Lossless
