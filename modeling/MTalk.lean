import MTalk.Library.XmlText
import MTalk.Library.JavaText
import MTalk.Config.LpConfig
import MTalk.Config.NetworkSettings
import MTalk.Config.IniFile
import MTalk.Config.IniUpdates
import MTalk.Config.IniReads
import MTalk.Config.IniDisk
import MTalk.Config.Friends
import MTalk.Config.FriendProxies
import MTalk.Config.Restarts
import MTalk.Config.AuthInfos
import MTalk.Assistance.Devices
import MTalk.Assistance.Relations
import MTalk.Assistance.AccountManager
import MTalk.Assistance.Downloads
import MTalk.Assistance.CompositeIds
import MTalk.Assistance.DeviceService
import MTalk.Assistance.StatusRuns
import MTalk.Assistance.DefinitionRuns
import MTalk.Assistance.Messages
import MTalk.Assistance.Dispatch
import MTalk.Library.PlaneGeometry
import MTalk.Library.WhileLoop
import MTalk.Triangle.GeoMath
import MTalk.Triangle.Net
import MTalk.Triangle.QueryList
import MTalk.Triangle.PointLocation
import MTalk.Triangle.InsertAlgorithm
import MTalk.Triangle.Polygon
import MTalk.Library.SideGluing
import MTalk.Triangle.Wiring
import MTalk.Triangle.Adjacency
import MTalk.Triangle.Vertices
import MTalk.Triangle.Triangulation
import MTalk.Triangle.NetRuns
import MTalk.Triangle.Orientation
import MTalk.Triangle.EdgeQueue
import MTalk.Triangle.QueueRuns
import MTalk.Triangle.Completion
import MTalk.Triangle.QueueConsistency
import MTalk.Triangle.Delaunay
import MTalk.Triangle.Ties
import MTalk.Triangle.Termination
import MTalk.Library.PartialWalks
import MTalk.Triangle.Contour
import MTalk.Triangle.ContourWalks
import MTalk.Triangle.ContourReturns
import MTalk.Triangle.LevelLines
import MTalk.Triangle.WholeContours
import MTalk.Triangle.ContourSets
import MTalk.Library.PolygonWinding
import MTalk.Library.SimplePolygons
import MTalk.Triangle.InsidePolygon
import MTalk.Triangle.VertexRuns
import MTalk.Triangle.Heights
import MTalk.Triangle.VertexStars
import MTalk.Library.TriangleInteriors
import MTalk.Triangle.Overlaps
import MTalk.Triangle.Rings
import MTalk.Triangle.Circumcentres
import MTalk.Library.PolarOrder
import MTalk.Library.GiftWrapping
import MTalk.Triangle.ConvexHulls
import MTalk.Triangle.NetFactory
import MTalk.Triangle.Areas
import MTalk.Triangle.ClosedCuts
import MTalk.Triangle.OrderedCuts
import MTalk.Library.GuardedRuns
import MTalk.Library.JavaArrays
import MTalk.Triangle.MatrixCon
import MTalk.Triangle.GridEdges
import MTalk.Triangle.GridRuns
import MTalk.Library.TriangleWalks
import MTalk.Triangle.GridPairs
import MTalk.Triangle.GridLines
import MTalk.Triangle.GridContours
import MTalk.Phone.LinphoneCore
import MTalk.Phone.Events
import MTalk.Phone.Frames
import MTalk.Phone.Lifetime
import MTalk.Phone.StateAgreement
import MTalk.Phone.ForeignDialogs
import MTalk.Phone.SdpAlignment
import MTalk.Phone.UsableAnswers
import MTalk.Phone.Presence
import MTalk.Phone.PresenceBody
import MTalk.Phone.CodecLists
import MTalk.Phone.CodecMatches
import MTalk.Phone.CodecSaves
import MTalk.Phone.CodecRestarts
import MTalk.Phone.Registrations
import MTalk.Phone.Bandwidth
import MTalk.Phone.CallHistory
import MTalk.Phone.FailedInvites
import MTalk.Phone.Peers
import MTalk.Library.SerialNumbers
import MTalk.Library.Channels
import MTalk.Rtp.Packets
import MTalk.Rtp.Queues
import MTalk.Rtp.TelephoneEvents
import MTalk.Rtp.Sessions
import MTalk.Rtp.Custody
import MTalk.Rtp.SessionRuns
import MTalk.Rtp.Locks
import MTalk.Rtp.Delivery
import MTalk.Rtp.Digits
import MTalk.Library.GuardedSearch
import MTalk.Ticker.Filters
import MTalk.Ticker.Scheduling
import MTalk.Ticker.Flow
import MTalk.Ticker.Attachments
import MTalk.Ticker.Hosts
import MTalk.Ticker.Turns
import MTalk.Library.Refinements
import MTalk.Blocks.Memory
import MTalk.Blocks.Messages
import MTalk.Blocks.Stores
import MTalk.Blocks.Bufferizer
