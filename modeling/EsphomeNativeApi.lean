import EsphomeNativeApi.RustSemantics
import EsphomeNativeApi.Framing
import EsphomeNativeApi.Varint
import EsphomeNativeApi.MessageTable
import EsphomeNativeApi.Frames
import EsphomeNativeApi.FrameFormat
import EsphomeNativeApi.FrameDecoding
import EsphomeNativeApi.FrameGrammar
import EsphomeNativeApi.FrameEncoding
import EsphomeNativeApi.FrameLimits
import EsphomeNativeApi.Packets
import EsphomeNativeApi.PacketPaths
import EsphomeNativeApi.RoundTrips
import EsphomeNativeApi.Channels
import EsphomeNativeApi.Runs
import EsphomeNativeApi.EspHomeApi
import EsphomeNativeApi.Start
import EsphomeNativeApi.Handshake
import EsphomeNativeApi.StartTotality
import EsphomeNativeApi.ReadLoops
import EsphomeNativeApi.ClientTraffic
import EsphomeNativeApi.ReadPath
import EsphomeNativeApi.WriteLoops
import EsphomeNativeApi.Connection
import EsphomeNativeApi.ReadHistories
import EsphomeNativeApi.WriteHistories
import EsphomeNativeApi.Histories
import EsphomeNativeApi.RequestMatching
import EsphomeNativeApi.OutboundOrder
import EsphomeNativeApi.EncryptionEnforced
import EsphomeNativeApi.StartOutcomes
import EsphomeNativeApi.EspHomeServer
import EsphomeNativeApi.Applications
import EsphomeNativeApi.Safety
import EsphomeNativeApi.Delivery
import EsphomeNativeApi.EndOfStream
import EsphomeNativeApi.Routing
import EsphomeNativeApi.Schedules
import EsphomeNativeApi.Withstanding
import EsphomeNativeApi.Progress
import EsphomeNativeApi.CrashFreedom
import EsphomeNativeApi.EntityRegistry
import EsphomeNativeApi.MultiplyXor
import EsphomeNativeApi.Hash
import EsphomeNativeApi.ServerHello
import EsphomeNativeApi.StreamMessages
import EsphomeNativeApi.ChunkIndependence
import EsphomeNativeApi.SecureChannel
import EsphomeNativeApi.Transcript
import EsphomeNativeApi.Peers
import EsphomeNativeApi.Simulations
import EsphomeNativeApi.Services
import EsphomeNativeApi.ServiceRefinement
import EsphomeNativeApi.FairSchedules
import EsphomeNativeApi.Turns
import EsphomeNativeApi.ServerFaults
import EsphomeNativeApi.ResourceBounds
import EsphomeNativeApi.Liveness
import EsphomeNativeApi.HonestClients
import EsphomeNativeApi.ServerDelivery
import EsphomeNativeApi.TestServer
import EsphomeNativeApi.TestServerLiveness
import EsphomeNativeApi.Disconnection
