import CloudEdgePush.Lib.Transition
import CloudEdgePush.Lib.LittleEndian
import CloudEdgePush.Lib.Lua
import CloudEdgePush.Lib.Bytes
import CloudEdgePush.Client.BytesBuffer
import CloudEdgePush.Client.TcpMessage
import CloudEdgePush.Client.TcpClientImpl
import CloudEdgePush.Client.Reading
import CloudEdgePush.Client.ReadRange
import CloudEdgePush.Lib.Framing
import CloudEdgePush.Server.MessagePacket
import CloudEdgePush.Client.Writing
import CloudEdgePush.Wire.ClientToServer
import CloudEdgePush.Client.ReadCycle
import CloudEdgePush.Wire.ServerToClient
import CloudEdgePush.Client.FileInfo
import CloudEdgePush.Client.SysUpdateHandler
import CloudEdgePush.Client.Download
import CloudEdgePush.Client.CountedBytes
import CloudEdgePush.Client.Records
import CloudEdgePush.Client.MessageHandler
import CloudEdgePush.Client.Login
import CloudEdgePush.Server.Json
import CloudEdgePush.Server.Session
import CloudEdgePush.Server.Registration
import CloudEdgePush.Server.ServiceUpload
import CloudEdgePush.Server.UploadStore
import CloudEdgePush.Lib.History
import CloudEdgePush.Server.ServiceQuery
import CloudEdgePush.Server.UploadHistory
import CloudEdgePush.Client.Resume
import CloudEdgePush.Client.BinaryData
import CloudEdgePush.Wire.Decoders
import CloudEdgePush.Server.Turns
import CloudEdgePush.Server.SessionEnd
import CloudEdgePush.Server.Connections
import CloudEdgePush.Server.SessionReuse
import CloudEdgePush.Server.Heartbeat
import CloudEdgePush.Lib.Fifo
import CloudEdgePush.Server.Pipeline
import CloudEdgePush.Client.IoLoop
import CloudEdgePush.Client.Link
import CloudEdgePush.Client.NoReconnect
import CloudEdgePush.Client.Reconnect
import CloudEdgePush.Client.WayBack
import CloudEdgePush.Client.WriteQueue
import CloudEdgePush.Client.WriteOrder
import CloudEdgePush.Server.Isolation
import CloudEdgePush.Server.RecvPacket
import CloudEdgePush.Client.FileInfosRw
import CloudEdgePush.Client.RecordList
import CloudEdgePush.Server.RenewedLogin
import CloudEdgePush.Client.Published
import CloudEdgePush.Server.Pushfile
import CloudEdgePush.Server.UploadPush
import CloudEdgePush.Server.UploadDb
import CloudEdgePush.Client.WholeFile
import CloudEdgePush.Server.Bodies
import CloudEdgePush.Client.Supervision
import CloudEdgePush.Client.RejectedHeader
import CloudEdgePush.Client.Reports
import CloudEdgePush.Client.SyncWaitMsg
import CloudEdgePush.Client.LoginWait
import CloudEdgePush.Daemon.SharedMemoryChecker
import CloudEdgePush.Client.JsonText
import CloudEdgePush.Client.KilledUpdate
import CloudEdgePush.Client.CheckedBuffer
import CloudEdgePush.Client.BufferQueue
import CloudEdgePush.Client.SessionReading
import CloudEdgePush.Client.SessionStart
import CloudEdgePush.Server.Outbox
import CloudEdgePush.Server.PushDelivery
import CloudEdgePush.Server.Acknowledged
import CloudEdgePush.Server.Served
import CloudEdgePush.Wire.Dialogue
import CloudEdgePush.Wire.Delivery
import CloudEdgePush.Lib.Until
import CloudEdgePush.Lib.LuaPattern
import CloudEdgePush.Server.RestyUpload
import CloudEdgePush.Server.RestyPost
import CloudEdgePush.Server.MultipartBody
import CloudEdgePush.Server.MultipartForm
import CloudEdgePush.Server.UploadRequest
import CloudEdgePush.Client.ThreadPool
import CloudEdgePush.Server.ZipArchive
import CloudEdgePush.Daemon.ProcessTable
import CloudEdgePush.Daemon.Instances
import CloudEdgePush.Daemon.Restarts
import CloudEdgePush.Client.Subscriber
import CloudEdgePush.Client.Updates
import CloudEdgePush.Wire.PushedFiles
