import BoardMarkup.BBCode.Template
import BoardMarkup.BBCode.Usage
import BoardMarkup.Base64
import BoardMarkup.Board.Assembly
import BoardMarkup.Board.Data
import BoardMarkup.Board.Entity
import BoardMarkup.Board.Publish
import BoardMarkup.Censor
import BoardMarkup.Censor.Match
import BoardMarkup.Disk.Basic
import BoardMarkup.Disk.Path
import BoardMarkup.Filter.Basic
import BoardMarkup.Filter.Pattern
import BoardMarkup.Formatter.Artifact
import BoardMarkup.Formatter.Basic
import BoardMarkup.Formatter.Compile
import BoardMarkup.Json.Reader
import BoardMarkup.Json.Record
import BoardMarkup.Json.Value
import BoardMarkup.Markup.Attribute
import BoardMarkup.Markup.Check
import BoardMarkup.Markup.Doctype
import BoardMarkup.Markup.Fault
import BoardMarkup.Markup.Token
import BoardMarkup.Settings.Config
import BoardMarkup.Settings.Expand
import BoardMarkup.Sha256
import BoardMarkup.Store
import BoardMarkup.Style.Bitfield
import BoardMarkup.Style.Directive
import BoardMarkup.Style.Fragment
import BoardMarkup.Style.Normalizer
import BoardMarkup.Style.Recompose
import BoardMarkup.Style.Resolve
import BoardMarkup.Style.Switch
import BoardMarkup.Table
import BoardMarkup.Text.Alphanumeric
import BoardMarkup.Text.CharSet
import BoardMarkup.Text.Classes
import BoardMarkup.Text.Folding
import BoardMarkup.Text.Letters
import BoardMarkup.Text.Pieces
import BoardMarkup.Text.Quoted
import BoardMarkup.Text.Replacements
import BoardMarkup.Text.Trim
import BoardMarkup.Text.Unseen
import BoardMarkup.Text.Utf8
import BoardMarkup.Text.Words
import BoardMarkup.Toml.Reader
import BoardMarkup.Toml.Value
import BoardMarkup.Proofs.Board.LifeCycle
import BoardMarkup.Proofs.Board.Search
import BoardMarkup.Proofs.Board.Composition
import BoardMarkup.Proofs.Board.Sweep
import BoardMarkup.Proofs.Disk.Temporary
import BoardMarkup.Proofs.Store.Files
import BoardMarkup.Proofs.Store.Interleaving
import BoardMarkup.Proofs.Board.Interleaving
import BoardMarkup.Proofs.Board.CachedValues
import BoardMarkup.Proofs.Board.Retention
import BoardMarkup.Proofs.Formatter.Identity
import BoardMarkup.Proofs.Board.Accounting
import BoardMarkup.Proofs.Board.WordChange
import BoardMarkup.Proofs.Formatter.Registry
import BoardMarkup.Proofs.Style.Extraction
import BoardMarkup.Proofs.Style.Merging
import BoardMarkup.Proofs.Style.Bitfield
import BoardMarkup.Proofs.Board.Repetition
import BoardMarkup.Proofs.Style.TypeChoice
import BoardMarkup.Proofs.Censor.Replacement
import BoardMarkup.Proofs.Formatter.Requirements
import BoardMarkup.Proofs.BBCode.Written
import BoardMarkup.Proofs.Censor.Standing
import BoardMarkup.Proofs.Markup.Handler
import BoardMarkup.Proofs.Style.Ranking
import BoardMarkup.Proofs.Style.Rejection
import BoardMarkup.Proofs.Store.Reopening
import BoardMarkup.Proofs.Formatter.CensorTag
import BoardMarkup.Proofs.Board.Formatting
import BoardMarkup.Proofs.Style.TextElement
import BoardMarkup.Proofs.Style.Aliases
import BoardMarkup.Proofs.Markup.Forest
import BoardMarkup.Proofs.BBCode.Hazard
import BoardMarkup.Proofs.Board.LocalUrl
import BoardMarkup.Proofs.Board.Smiley
import BoardMarkup.Proofs.Style.SpaceRemoval
import BoardMarkup.Proofs.Style.Indentation
import BoardMarkup.Proofs.Settings.Address
import BoardMarkup.Proofs.Settings.Expansion
import BoardMarkup.Proofs.Board.Tokens
