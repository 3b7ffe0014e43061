import EasyGameServer.CircularBuffer.Checked
import EasyGameServer.CircularBuffer.Observe
import EasyGameServer.ClientSession.SendSide
import EasyGameServer.PacketHandling.Framing
import EasyGameServer.ProducerConsumerQueue.Threads
import EasyGameServer.Scheduler.Timing
import EasyGameServer.DatabaseJobManager.Loads
import EasyGameServer.Server.Chat
import EasyGameServer.Server.Deadlock
import EasyGameServer.Server.LoginRouting
import EasyGameServer.Server.Registration
import EasyGameServer.Server.Speaking
import EasyGameServer.Server.Timers
import EasyGameServer.Server.Receiving
import EasyGameServer.Server.HungUp
import EasyGameServer.Server.DatabaseJobs
import EasyGameServer.TcpClient.Send
import EasyGameServer.TcpClient.ProcessPacket
import EasyGameServer.DummyClient
import EasyGameServer.ObjectPool.Runs
import EasyGameServer.Network
import EasyGameServer.Server.Flushing
import EasyGameServer.Server.Survival
import EasyGameServer.Server.Armed
import EasyGameServer.Server.Restoring
import EasyGameServer.Server.Blocking
import EasyGameServer.Server.Resources
import EasyGameServer.Screens
import EasyGameServer.Server.Answering
import EasyGameServer.Server.Saving
import EasyGameServer.Crowd.Words
