import Turnstile.Guard.Timeline
import Turnstile.Lock.Timeline
import Turnstile.Main
import Turnstile.Number.Reading
import Turnstile.Redis.Peer
import Turnstile.Settings.Document
import Turnstile.Store.Observed
import Turnstile.Proofs.Bytes.Base64Url
import Turnstile.Proofs.Bytes.Percent
import Turnstile.Proofs.Text.Readers
import Turnstile.Proofs.Text.Replacement
import Turnstile.Proofs.Text.Trimming
import Turnstile.Proofs.Number.Shortest
import Turnstile.Proofs.Number.Reading
import Turnstile.Proofs.Json.Scalars
import Turnstile.Proofs.Json.Values
import Turnstile.Proofs.Json.Records
import Turnstile.Proofs.Json.Written
import Turnstile.Proofs.Json.Tables
import Turnstile.Proofs.Json.Outcomes
import Turnstile.Proofs.Json.Numbers
import Turnstile.Proofs.Json.Texts
import Turnstile.Proofs.Json.Nesting
import Turnstile.Proofs.Key.Grammar
import Turnstile.Proofs.Key.Reading
import Turnstile.Proofs.Key.Recognition
import Turnstile.Proofs.Key.Separation
import Turnstile.Proofs.Key.Sums
import Turnstile.Proofs.Key.Positions
import Turnstile.Proofs.Key.LeftOut
import Turnstile.Proofs.Key.Templates
import Turnstile.Proofs.Lock.Slots
import Turnstile.Proofs.Lock.Events
import Turnstile.Proofs.Lock.Course
import Turnstile.Proofs.Lock.Tenure
import Turnstile.Proofs.Lock.Queue
import Turnstile.Proofs.Lock.Wakeups
import Turnstile.Proofs.Lock.Lapses
import Turnstile.Proofs.Lock.Leftovers
import Turnstile.Proofs.Lock.Deadlines
import Turnstile.Proofs.Guard.Exclusion
import Turnstile.Proofs.Guard.Conduct
import Turnstile.Proofs.Store.Live
import Turnstile.Proofs.Store.Performance
import Turnstile.Proofs.Store.Exchanges
import Turnstile.Proofs.Store.Behaviours
import Turnstile.Proofs.Store.Pool
import Turnstile.Proofs.Store.Vanishing
import Turnstile.Proofs.Token.Comparison
import Turnstile.Proofs.Token.Sealing
import Turnstile.Proofs.Token.Tampering
import Turnstile.Proofs.Session.SealedClaims
import Turnstile.Proofs.Session.StoredRecords
import Turnstile.Proofs.Session.Journal
import Turnstile.Proofs.Session.Effects
import Turnstile.Proofs.Session.Contract
import Turnstile.Proofs.Session.Races
import Turnstile.Proofs.Session.Requests
import Turnstile.Proofs.Session.Changes
import Turnstile.Proofs.Session.Resolution
import Turnstile.Proofs.Session.Devices
import Turnstile.Proofs.Session.Superseded
import Turnstile.Proofs.Session.Lifetimes
import Turnstile.Proofs.Session.Headers
import Turnstile.Proofs.Session.Presentation
import Turnstile.Proofs.Redis.Attempts
import Turnstile.Proofs.Redis.HashTags
import Turnstile.Proofs.Redis.Peers
import Turnstile.Proofs.Settings.Documents
import Turnstile.Proofs.Settings.Sound
import Turnstile.Proofs.Settings.Domains
import Turnstile.Proofs.Settings.Blanks
