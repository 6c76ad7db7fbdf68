import Purrlington.Lib.Machine
import Purrlington.Lib.Pool
import Purrlington.Lib.Framing
import Purrlington.Lib.Decoder
import Purrlington.Lib.Dict
import Purrlington.Lib.Counter
import Purrlington.Lib.Ledger
import Purrlington.Lib.Fragments
import Purrlington.Lib.Json
import Purrlington.Lib.Schema
import Purrlington.Lib.Percent
import Purrlington.Lib.Url
import Purrlington.Lib.TtlCache
import Purrlington.Lib.FixedWindow
import Purrlington.Lib.Binary64
import Purrlington.Lib.Column
import Purrlington.Beach.Repository
import Purrlington.Beach.Statements
import Purrlington.Beach.UseCases
import Purrlington.Beach.Bookings
import Purrlington.Beach.Alternation
import Purrlington.Beach.OneActivity
import Purrlington.Beach.Admission
import Purrlington.Beach.Removed
import Purrlington.Beach.Broadcast
import Purrlington.Hotel.Reservation
import Purrlington.Hotel.DoubleBooking
import Purrlington.Hotel.Occupancy
import Purrlington.Hotel.Lifecycle
import Purrlington.Hotel.Availability
import Purrlington.Hotel.Cancellation
import Purrlington.Hotel.Create
import Purrlington.Hotel.Lookup
import Purrlington.Simulation.Calendar
import Purrlington.Simulation.Generator
import Purrlington.Simulation.Harmless
import Purrlington.Lib.Watermark
import Purrlington.Crab.Store
import Purrlington.Crab.Ledger
import Purrlington.Crab.Totals
import Purrlington.Crab.Orders
import Purrlington.Crab.SoldOut
import Purrlington.Lib.Refill
import Purrlington.Lib.WriteBack
import Purrlington.Lib.RoundRobin
import Purrlington.Lib.Places
import Purrlington.Lib.StableSort
import Purrlington.Lib.Paging
import Purrlington.Lib.Recent
import Purrlington.Lib.Runs
import Purrlington.Lib.Regex
import Purrlington.GoatFarm.Store
import Purrlington.GoatFarm.Supply
import Purrlington.Gateway.Http
import Purrlington.Gateway.Cache
import Purrlington.Gateway.Followers
import Purrlington.Gateway.Delivery
import Purrlington.Gateway.Flights
import Purrlington.Gateway.SingleFlight
import Purrlington.Gateway.Capture
import Purrlington.Gateway.Soundness
import Purrlington.Gateway.OneFetch
import Purrlington.Gateway.Cors
import Purrlington.Gateway.Origins
import Purrlington.Parrot.History
import Purrlington.Parrot.Trimming
import Purrlington.Parrot.Eviction
import Purrlington.Gateway.Pool
import Purrlington.Gateway.Url
import Purrlington.Gateway.Route
import Purrlington.Gateway.Mount
import Purrlington.Gateway.RateLimit
import Purrlington.Gateway.Fairness
import Purrlington.Gateway.RetryAfter
import Purrlington.Gateway.Admin
import Purrlington.Gateway.Balance
import Purrlington.Gateway.Query
import Purrlington.Parrot.Chat
import Purrlington.Parrot.Traffic
import Purrlington.Parrot.Pooled
import Purrlington.Parrot.Transcript
import Purrlington.Parrot.Streaming
import Purrlington.Parrot.Admin
import Purrlington.Parrot.AdminCounts
import Purrlington.Parrot.AdminTranscript
import Purrlington.Airport.Gate
import Purrlington.Airport.Bundle
import Purrlington.Airport.FirstCome
import Purrlington.Airport.Manager
import Purrlington.Airport.Accounts
import Purrlington.Airport.Processed
import Purrlington.Airport.Stranded
import Purrlington.Airport.View
import Purrlington.Airport.Operations
import Purrlington.Airport.Tidy
import Purrlington.Airport.Settled
import Purrlington.Airport.Upkeep
import Purrlington.Airport.Truthful
import Purrlington.Airport.Restart
import Purrlington.Airport.Restored
import Purrlington.Airport.Interrupted
import Purrlington.Airport.Paging
import Purrlington.Airport.Frontend
import Purrlington.Airport.Waiting
import Purrlington.Airport.Placed
import Purrlington.Airport.Listed
import Purrlington.Airport.LastGate
import Purrlington.Parrot.Tools
import Purrlington.Parrot.Requests
import Purrlington.Parrot.Session
import Purrlington.Parrot.ToolCalls
import Purrlington.Parrot.Replies
import Purrlington.Parrot.Profanity
import Purrlington.Parrot.Masking
import Purrlington.Parrot.Disguise
import Purrlington.Broadcast.EventBus
import Purrlington.Broadcast.Routes
import Purrlington.Broadcast.App
import Purrlington.Broadcast.Pipeline
import Purrlington.Broadcast.CheckIn
import Purrlington.Frontend.EventsStore
import Purrlington.Broadcast.SseClient
import Purrlington.Broadcast.CheckInParser
import Purrlington.Broadcast.Stream
import Purrlington.Airport.Cleared
import Purrlington.Resort.System
import Purrlington.Resort.Journey
import Purrlington.Resort.Delivered
import Purrlington.Frontend.Reconnect
import Purrlington.Frontend.Live
import Purrlington.Parrot.Panel
import Purrlington.Parrot.Dialog
import Purrlington.Parrot.Order
