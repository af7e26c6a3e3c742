import AstraConnect.Lib.Decimal
import AstraConnect.Lib.NearestDivision
import AstraConnect.Lib.Scan
import AstraConnect.Utils.FixedPoint
import AstraConnect.Utils.FixedPointParse
import AstraConnect.Utils.FixedPointFormat
import AstraConnect.Lib.Containers
import AstraConnect.Lib.Transition
import AstraConnect.Orderbook.PriceLevel
import AstraConnect.Orderbook.SortedBook
import AstraConnect.Orderbook.LevelMap
import AstraConnect.Orderbook.SortedBookLayout
import AstraConnect.Orderbook.SortedBookInvariant
import AstraConnect.Orderbook.SortedBookRefinement
import AstraConnect.Orderbook.SortedBookBounds
import AstraConnect.Orderbook.SortedBookWindow
import AstraConnect.Orderbook.Orderbook
import AstraConnect.Orderbook.BookData
import AstraConnect.Orderbook.ExecutionLoop
import AstraConnect.Orderbook.Synced
import AstraConnect.Orderbook.Alignment
import AstraConnect.Orderbook.PublicReads
import AstraConnect.Orderbook.DroppedEvents
import AstraConnect.Lib.Json
import AstraConnect.Lib.JsonText
import AstraConnect.Order.RequestParameter
import AstraConnect.Order.OrderTracker
import AstraConnect.Order.PlaceOrderParameters
import AstraConnect.Order.OrderStream
import AstraConnect.Order.RequestText
import AstraConnect.Order.RequestHistory
import AstraConnect.Order.HistoryIndependence
import AstraConnect.Order.OwnResponse
import AstraConnect.Order.OrderResponse
import AstraConnect.Order.ResponseReading
import AstraConnect.Order.ResponseGetters
import AstraConnect.Order.AccountBalance
import AstraConnect.Order.ResponseTermination
import AstraConnect.Order.FreshFrames
import AstraConnect.Order.ActiveOrders
import AstraConnect.Order.SignedQuery
import AstraConnect.Orderbook.LevelReading
import AstraConnect.Orderbook.SnapshotFetch
import AstraConnect.Orderbook.SlotOwnership
import AstraConnect.Orderbook.DepthDecoding
import AstraConnect.Orderbook.NearestTick
import AstraConnect.Raw.RawWebsocket
import AstraConnect.Raw.CallbackProtocol
import AstraConnect.Order.OrderAccess
import AstraConnect.Core.SharedParser
import AstraConnect.Core.StreamHolder
import AstraConnect.Core.WebsocketHolders
import AstraConnect.Orderbook.Destruction
import AstraConnect.Core.ExponentialBackOff
import AstraConnect.Core.BackoffShutdown
import AstraConnect.Api.FetchError
import AstraConnect.Api.StreamConstruction
import AstraConnect.Core.MessageHandover
import AstraConnect.Api.RingFetch
import AstraConnect.Order.TrackerEntries
import AstraConnect.Order.FailedWrites
import AstraConnect.Order.NullOrders
import AstraConnect.Lib.FieldReading
import AstraConnect.Api.UserDataEvents
import AstraConnect.Api.OwnFields
import AstraConnect.Lib.HandOver
import AstraConnect.AstraLib.AtomicRingBuffer
import AstraConnect.AstraLib.RingInvariant
import AstraConnect.AstraLib.RingSafety
import AstraConnect.AstraLib.RingProgress
import AstraConnect.AstraLib.RingCalls
import AstraConnect.AstraLib.SoleConsumer
import AstraConnect.AstraLib.ThreadSafeIndexPool
import AstraConnect.AstraLib.Spinlock
import AstraConnect.Order.TrackerProgress
import AstraConnect.Orderbook.DepthPipeline
import AstraConnect.Raw.Connect
import AstraConnect.Api.ExchangeInfo
import AstraConnect.Orderbook.TickSize
import AstraConnect.Core.LatestMessage
import AstraConnect.Raw.CloseProgress
import AstraConnect.Core.SharedHolder
