import TinderFirestore.AutoLayout
import TinderFirestore.CardPhoto
import TinderFirestore.CardTaps
import TinderFirestore.CardView
import TinderFirestore.ClampedWalk
import TinderFirestore.ClientDocuments
import TinderFirestore.ClientRuns
import TinderFirestore.ClientSession
import TinderFirestore.ClientWatch
import TinderFirestore.ClientWrites
import TinderFirestore.Components
import TinderFirestore.DeckGestures
import TinderFirestore.DeckOrder
import TinderFirestore.DeckStraight
import TinderFirestore.EventRun
import TinderFirestore.FirestoreStore
import TinderFirestore.HomeCards
import TinderFirestore.HomeDisplay
import TinderFirestore.HomeFetch
import TinderFirestore.HomeOverlap
import TinderFirestore.HomePaging
import TinderFirestore.HomeProvenance
import TinderFirestore.KeysetPage
import TinderFirestore.LimboTracking
import TinderFirestore.LocalMutations
import TinderFirestore.LocalQueries
import TinderFirestore.LocalStore
import TinderFirestore.ObjectValue
import TinderFirestore.ProgressHud
import TinderFirestore.ProgressHudLeave
import TinderFirestore.QueryView
import TinderFirestore.RankedSet
import TinderFirestore.RecordMerge
import TinderFirestore.Refinement
import TinderFirestore.RegisterButton
import TinderFirestore.RegisterCall
import TinderFirestore.RegisterCompletion
import TinderFirestore.RegisterDocument
import TinderFirestore.RegisterFailure
import TinderFirestore.RegisterForm
import TinderFirestore.RegisterHud
import TinderFirestore.RegisterLayout
import TinderFirestore.RegisterMixing
import TinderFirestore.RegisterProgress
import TinderFirestore.RegisterViewModel
import TinderFirestore.RemoteStream
import TinderFirestore.SettingsPhotos
import TinderFirestore.SettingsRange
import TinderFirestore.SettingsRebuild
import TinderFirestore.SettingsRoundTrip
import TinderFirestore.SettingsScreen
import TinderFirestore.SettingsSessions
import TinderFirestore.SettingsShown
import TinderFirestore.SettingsStore
import TinderFirestore.SettingsUnloaded
import TinderFirestore.SwiftInt
import TinderFirestore.SyncEngine
import TinderFirestore.SyncQueues
import TinderFirestore.SyncRuns
import TinderFirestore.UserProfile
import TinderFirestore.ViewChangeSet
import TinderFirestore.ViewDocuments
import TinderFirestore.ViewSnapshot
import TinderFirestore.WatchChangeAggregator
import TinderFirestore.WatchDocuments
import TinderFirestore.WatchEvents
import TinderFirestore.WritePipeline
