import MyMMO.Lib.Circular
import MyMMO.Lib.System
import MyMMO.Lib.Fifo
import MyMMO.Lib.Framing
import MyMMO.Lib.Pool
import MyMMO.Lib.Outcome
import MyMMO.Lib.Cells
import MyMMO.Lib.Positions
import MyMMO.Common
import MyMMO.Message
import MyMMO.RingBuffer
import MyMMO.RingSpsc
import MyMMO.PointerQueue
import MyMMO.Recv
import MyMMO.RecvStream
import MyMMO.ClientRecv
import MyMMO.RecvQueue
import MyMMO.SendPath
import MyMMO.Slot
import MyMMO.Sector
import MyMMO.Server
import MyMMO.ServerInv
import MyMMO.OneSession
import MyMMO.HandBack
import MyMMO.Contents
import MyMMO.Field
import MyMMO.Acts
import MyMMO.FieldFrame
import MyMMO.FieldIndex
import MyMMO.Aoi
import MyMMO.View
import MyMMO.Items
import MyMMO.Logout
import MyMMO.Kills
import MyMMO.Attack
import MyMMO.MonsterTick
import MyMMO.MonsterMoves
import MyMMO.Ranking
import MyMMO.Shutdown
import MyMMO.Players
import MyMMO.Saved
import MyMMO.SectorIndex
import MyMMO.Stun
import MyMMO.Lock
import MyMMO.Leak
import MyMMO.Life
import MyMMO.Mail
import MyMMO.MailCount
import MyMMO.Lives
import MyMMO.Lib.Descent
import MyMMO.Lib.Grid
import MyMMO.World
import MyMMO.Home
import MyMMO.Wire
import MyMMO.Batch
import MyMMO.Orphan
import MyMMO.Cooldown
import MyMMO.Kinematics
import MyMMO.Places
import MyMMO.Reports
import MyMMO.CDB
import MyMMO.Login
import MyMMO.Exact
import MyMMO.Pruned
import MyMMO.Scatter
import MyMMO.Animation
import MyMMO.SectorLists
import MyMMO.RankingTies
import MyMMO.SendBatch
import MyMMO.Pacing
import MyMMO.Lib.Extremes
import MyMMO.Profiler
import MyMMO.MessageBuffer
import MyMMO.SqlText
import MyMMO.Remote
import MyMMO.Relogin
import MyMMO.Overrun
import MyMMO.Payload
import MyMMO.Lib.Codec
import MyMMO.Packets
import MyMMO.Requests
import MyMMO.Bot
import MyMMO.Lib.InFlight
import MyMMO.Reckoning
