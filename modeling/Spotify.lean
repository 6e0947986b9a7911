import Spotify.Lib.Runs
import Spotify.Lib.Pool
import Spotify.Lib.Inbox
import Spotify.Lib.Refinement
import Spotify.Lib.PercentEncoding
import Spotify.Lib.Codec
import Spotify.Foundation
import Spotify.Models
import Spotify.Codable
import Spotify.Rx.Bag
import Spotify.Rx.Subjects
import Spotify.Rx.Relays
import Spotify.Rx.Debounce
import Spotify.Rx.MainScheduler
import Spotify.Rx.ObserveOn
import Spotify.Auth.Manager
import Spotify.Auth.SingleFlight
import Spotify.Auth.Waiters
import Spotify.Auth.Signout
import Spotify.Auth.Sessions
import Spotify.Auth.Callers
import Spotify.Auth.Fresh
import Spotify.Auth.Forms
import Spotify.Auth.SavedUser
import Spotify.Api.Client
import Spotify.Api.Answers
import Spotify.Api.Requests
import Spotify.Api.Bodies
import Spotify.Search.ViewModel
import Spotify.Search.Stale
import Spotify.Search.Tap
import Spotify.Search.Display
import Spotify.Search.Logout
import Spotify.Search.Query
import Spotify.Search.Settled
import Spotify.Search.Bodies
import Spotify.Search.Observed
import Spotify.Search.Relayed
import Spotify.Album.ViewModel
import Spotify.Album.Screen
import Spotify.Album.Path
import Spotify.Browse.App
import Spotify.Browse.Linked
import Spotify.Browse.Screens
import Spotify.Browse.Search
import Spotify.Browse.MainQueue
import Spotify.Browse.Alerts
import Spotify.Image.Downloader
import Spotify.Image.TaskTable
import Spotify.Image.Cell
import Spotify.Image.Populate
import Spotify.Image.Views
import Spotify.Image.Requests
import Spotify.Image.Reuse
import Spotify.Image.Own
import Spotify.Login.ViewModel
import Spotify.Login.Outcomes
import Spotify.Login.Navigation
import Spotify.Login.Screens
import Spotify.Login.Accounts
import Spotify.Login.Linked
import Spotify.Login.Attempts
