import BoardRules.Text.Blank
import BoardRules.Text.Pieces
import BoardRules.Text.Decimal
import BoardRules.Text.Alphanumeric
import BoardRules.Note.Paragraph
import BoardRules.Note.Inline
import BoardRules.Note.Emphasis
import BoardRules.Note.Declaration
import BoardRules.Text.Utf8
import BoardRules.Text.Hex
import BoardRules.Json.Failure
import BoardRules.Json.Numeral
import BoardRules.Json.Quoted
import BoardRules.Json.Node
import BoardRules.Json.Decoder
import BoardRules.Json.Value
import BoardRules.InputError
import BoardRules.Entity.Url
import BoardRules.Entity.ClosingReference
import BoardRules.Event.Trigger
import BoardRules.Event.Payload
import BoardRules.Event.Basic
import BoardRules.Review
import BoardRules.Board.Basic
import BoardRules.Board.PlacedRule
import BoardRules.Tracking.Error
import BoardRules.Tracking.Dialogue
import BoardRules.Tracking.Retry
import BoardRules.Catalog.Matcher
import BoardRules.Catalog.CompanionNote
import BoardRules.Catalog.SideEffect
import BoardRules.Catalog.Basic
import BoardRules.Dispatch.Report
import BoardRules.Dispatch.Run
import BoardRules.Dispatch.Router
import BoardRules.Tracking.Script
import BoardRules.Store.Basic
import BoardRules.Store.Service
import BoardRules.Digest.Sha256
import BoardRules.Digest.Hmac
import BoardRules.Http
import BoardRules.Webhook.Error
import BoardRules.Webhook.Signature
import BoardRules.Webhook.Receiver
import BoardRules.GitHub.Envelope
import BoardRules.GitHub.BoardView
import BoardRules.GitHub.Query
import BoardRules.Json.Printer
import BoardRules.GitHub.Reply
import BoardRules.GitHub.Client
import BoardRules.Settings.SocketAddress
import BoardRules.Settings.Basic
import BoardRules.Settings.CommandLine
import BoardRules.Main
import BoardRules.Proofs.Text.Pieces
import BoardRules.Proofs.Text.Decimal
import BoardRules.Proofs.Note.Written
import BoardRules.Proofs.Note.InlineReading
import BoardRules.Proofs.Note.RoundTrip
import BoardRules.Proofs.Dispatch.Triple
import BoardRules.Proofs.Dispatch.ActionLog
import BoardRules.Proofs.Dispatch.Grouping
import BoardRules.Proofs.Dispatch.CallDiscipline
import BoardRules.Proofs.Dispatch.Plan
import BoardRules.Proofs.Dispatch.Agenda
import BoardRules.Proofs.Store.Columns
import BoardRules.Proofs.Store.WellFormed
import BoardRules.Proofs.Store.Contents
import BoardRules.Proofs.Store.Consistency
import BoardRules.Proofs.Board.PlacedRule
import BoardRules.Proofs.Store.Views
import BoardRules.Proofs.Store.RuleCards
import BoardRules.Proofs.Dispatch.PinnedRules
import BoardRules.Proofs.Store.Extraction
import BoardRules.Proofs.Store.Frame
import BoardRules.Proofs.Store.EntityCards
import BoardRules.Proofs.Store.Sinking
import BoardRules.Proofs.Dispatch.SelfCorrection
import BoardRules.Proofs.Dispatch.Settling
import BoardRules.Proofs.Dispatch.Transition
import BoardRules.Proofs.Dispatch.Absorption
import BoardRules.Proofs.Dispatch.Bystanders
import BoardRules.Proofs.Store.Stacked
import BoardRules.Proofs.Dispatch.Lowering
import BoardRules.Proofs.Dispatch.Anchors
import BoardRules.Proofs.Entity.LinkedIssue
import BoardRules.Proofs.Note.NumberedItems
import BoardRules.Proofs.Note.PlainRules
import BoardRules.Proofs.Store.Region
import BoardRules.Proofs.Dispatch.Independence
import BoardRules.Proofs.Store.Received
import BoardRules.Proofs.Dispatch.Companions
import BoardRules.Proofs.Note.Scanning
import BoardRules.Proofs.Note.BulletItems
import BoardRules.Proofs.Note.Separators
import BoardRules.Proofs.Note.PairedText
import BoardRules.Proofs.Note.Partners
import BoardRules.Proofs.Note.Pairing
import BoardRules.Proofs.Note.RuleOfThree
import BoardRules.Proofs.Note.RepositoryNames
import BoardRules.Proofs.Note.CompanionNotes
import BoardRules.Proofs.Store.Moves
import BoardRules.Proofs.Json.Grammar
import BoardRules.Proofs.Json.Scanning
import BoardRules.Proofs.Json.Reading
import BoardRules.Proofs.Json.Records
import BoardRules.Proofs.Json.Forms
import BoardRules.Proofs.Json.Opening
import BoardRules.Proofs.Event.Decoding
import BoardRules.Proofs.Webhook.Agreement
import BoardRules.Proofs.GitHub.ReceivedViews
import BoardRules.Proofs.Board.Sightings
import BoardRules.Proofs.Note.ParsedRules
import BoardRules.Proofs.Dispatch.Calls
import BoardRules.Proofs.Dispatch.Closings
import BoardRules.Proofs.Dispatch.Destinations
import BoardRules.Proofs.Note.TrailingSpace
import BoardRules.Proofs.Note.WordArguments
import BoardRules.Proofs.Entity.Canonical
import BoardRules.Proofs.Entity.FirstReference
import BoardRules.Proofs.Entity.Grammar
import BoardRules.Proofs.Text.Hex
import BoardRules.Proofs.Webhook.Signature
import BoardRules.Proofs.Tracking.Retrying
import BoardRules.Proofs.Dispatch.Routing
import BoardRules.Proofs.Note.OpenItems
import BoardRules.Proofs.GitHub.ReviewListing
import BoardRules.Proofs.Settings.Endpoints
import BoardRules.Proofs.Json.Keys
import BoardRules.Proofs.GitHub.Replies
import BoardRules.Proofs.Note.LeavesAndMarks
import BoardRules.Proofs.Note.PairingInPlace
import BoardRules.Proofs.Dispatch.ExactAnchors
