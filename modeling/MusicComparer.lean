import MusicComparer.Js.Text
import MusicComparer.Js.Number
import MusicComparer.Js.Json
import MusicComparer.Js.JsonText
import MusicComparer.Js.RoundTrip
import MusicComparer.Js.Unicode
import MusicComparer.Js.Uri
import MusicComparer.Js.Query
import MusicComparer.Js.Value
import MusicComparer.Js.Regex
import MusicComparer.Js.Conversion
import MusicComparer.Js.Promise
import MusicComparer.Html.Attribute
import MusicComparer.System.Run
import MusicComparer.System.Program
import MusicComparer.Redis.Keyspace
import MusicComparer.Redis.Table
import MusicComparer.Redis.Dict
import MusicComparer.Redis.Db
import MusicComparer.Redis.Lazy
import MusicComparer.Redis.Requests
import MusicComparer.Redis.Protocol
import MusicComparer.Redis.Sds
import MusicComparer.Redis.Networking
import MusicComparer.Redis.Stream
import MusicComparer.Redis.Robust
import MusicComparer.Redis.Output
import MusicComparer.Redis.Reader
import MusicComparer.Redis.ReplyStream
import MusicComparer.Upstream.Settings
import MusicComparer.Upstream.Urls
import MusicComparer.Api.Search2
import MusicComparer.Api.Outcome
import MusicComparer.Api.Deferred
import MusicComparer.Api.Failure
import MusicComparer.Server.Session
import MusicComparer.Server.World
import MusicComparer.Server.Copies
import MusicComparer.Server.InFlight
import MusicComparer.Server.Writes
import MusicComparer.Server.Provenance
import MusicComparer.Server.Authentication
import MusicComparer.Server.Admission
import MusicComparer.Server.Logout
import MusicComparer.Server.Cache
import MusicComparer.Server.Types
import MusicComparer.Server.Expiry
import MusicComparer.Server.Callback
import MusicComparer.Server.History
import MusicComparer.Server.Ranking
import MusicComparer.Client.Search
import MusicComparer.Client.ErrorCallback
import MusicComparer.Client.Transparency
import MusicComparer.Client.HandleData
import MusicComparer.Client.AddCommas
import MusicComparer.Client.Displayable
import MusicComparer.Client.Compare
import MusicComparer.Client.Independence
import MusicComparer.Client.Tags
import MusicComparer.Client.Comparison
import MusicComparer.Client.TagRequest
import MusicComparer.Client.LatestSearches
import MusicComparer.Redis.Pipeline
