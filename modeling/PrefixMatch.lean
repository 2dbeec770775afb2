import PrefixMatch.Cli.Arguments
import PrefixMatch.Cli.LogFilter
import PrefixMatch.Cli.LogLine
import PrefixMatch.Cli.Run
import PrefixMatch.Config.Basic
import PrefixMatch.Config.Loader
import PrefixMatch.Config.Strict
import PrefixMatch.Config.Written
import PrefixMatch.Error.Cause
import PrefixMatch.Error.Report
import PrefixMatch.Event
import PrefixMatch.Fields
import PrefixMatch.Files.Path
import PrefixMatch.Files.Tree
import PrefixMatch.Json.Number
import PrefixMatch.Json.Reader
import PrefixMatch.Json.Text
import PrefixMatch.Json.Value
import PrefixMatch.Json.Written
import PrefixMatch.KeyMaterial
import PrefixMatch.Layer.Conversion
import PrefixMatch.Layer.Environment
import PrefixMatch.Layer.File
import PrefixMatch.Layer.KeyPath
import PrefixMatch.Layer.Overlay
import PrefixMatch.Layer.Value
import PrefixMatch.Libraries
import PrefixMatch.Main
import PrefixMatch.Number.Double
import PrefixMatch.Number.Reading
import PrefixMatch.Number.Shortest
import PrefixMatch.Proofs.Cli.Answers
import PrefixMatch.Proofs.Cli.ConfiguredVocabulary
import PrefixMatch.Proofs.Cli.DefaultFile
import PrefixMatch.Proofs.Cli.PrintedLines
import PrefixMatch.Proofs.Cli.Reports
import PrefixMatch.Proofs.Cli.Run
import PrefixMatch.Proofs.Config.Crash
import PrefixMatch.Proofs.Config.EnvironmentText
import PrefixMatch.Proofs.Config.KeyOrder
import PrefixMatch.Proofs.Config.Layers
import PrefixMatch.Proofs.Config.Neutral
import PrefixMatch.Proofs.Config.Precedence
import PrefixMatch.Proofs.Config.RoundTrip
import PrefixMatch.Proofs.Config.Setting
import PrefixMatch.Proofs.Config.Strict
import PrefixMatch.Proofs.Config.Validity
import PrefixMatch.Proofs.Error.Delivery
import PrefixMatch.Proofs.Error.Messages
import PrefixMatch.Proofs.Fields
import PrefixMatch.Proofs.Files.Path
import PrefixMatch.Proofs.Files.Tree
import PrefixMatch.Proofs.Json.Members
import PrefixMatch.Proofs.Json.Object
import PrefixMatch.Proofs.Json.Text
import PrefixMatch.Proofs.KeyMaterial
import PrefixMatch.Proofs.Layer.KeyOrder
import PrefixMatch.Proofs.Layer.Overlay
import PrefixMatch.Proofs.Layer.Tidy
import PrefixMatch.Proofs.Layer.TidyToml
import PrefixMatch.Proofs.Number.Written
import PrefixMatch.Proofs.Text.Bytes
import PrefixMatch.Proofs.Text.Lines
import PrefixMatch.Proofs.Text.Lowercase
import PrefixMatch.Proofs.Text.Quoted
import PrefixMatch.Proofs.Text.Reading
import PrefixMatch.Proofs.Toml.Document
import PrefixMatch.Proofs.Toml.Layout
import PrefixMatch.Proofs.Toml.RootKeys
import PrefixMatch.Proofs.Toml.RootTable
import PrefixMatch.Proofs.Toml.Scalar
import PrefixMatch.Proofs.Toml.Tables
import PrefixMatch.Proofs.Toml.Text
import PrefixMatch.Proofs.Trie.Arrangement
import PrefixMatch.Proofs.Trie.Canonical
import PrefixMatch.Proofs.Trie.Contents
import PrefixMatch.Proofs.Trie.Enumeration
import PrefixMatch.Proofs.Trie.Exhaustion
import PrefixMatch.Proofs.Trie.History
import PrefixMatch.Proofs.Trie.Insertion
import PrefixMatch.Proofs.Trie.Listing
import PrefixMatch.Proofs.Trie.Lookup
import PrefixMatch.Proofs.Trie.Offsets
import PrefixMatch.Proofs.Trie.Order
import PrefixMatch.Proofs.Trie.Policies
import PrefixMatch.Proofs.Trie.Progress
import PrefixMatch.Proofs.Trie.Resolution
import PrefixMatch.Proofs.Trie.Tree
import PrefixMatch.Proofs.Trie.Walk
import PrefixMatch.Proofs.Vocabulary.Events
import PrefixMatch.Proofs.Vocabulary.Formats
import PrefixMatch.Proofs.Vocabulary.Lines
import PrefixMatch.Proofs.Vocabulary.Loading
import PrefixMatch.Proofs.Vocabulary.Outcomes
import PrefixMatch.Proofs.Vocabulary.PathFormat
import PrefixMatch.Proofs.Vocabulary.RootKeys
import PrefixMatch.Text.Bytes
import PrefixMatch.Text.Classes
import PrefixMatch.Text.Hex
import PrefixMatch.Text.Lines
import PrefixMatch.Text.Lowercase
import PrefixMatch.Text.Quoted
import PrefixMatch.Text.Split
import PrefixMatch.Text.Unprintable
import PrefixMatch.Toml.Digits
import PrefixMatch.Toml.Document
import PrefixMatch.Toml.Exact
import PrefixMatch.Toml.Moment
import PrefixMatch.Toml.RootKeys
import PrefixMatch.Toml.Tables
import PrefixMatch.Toml.Text
import PrefixMatch.Toml.Tolerant
import PrefixMatch.Toml.Value
import PrefixMatch.Toml.Written
import PrefixMatch.Trie.Basic
import PrefixMatch.Trie.Completions
import PrefixMatch.Trie.Inspect
import PrefixMatch.Trie.Node
import PrefixMatch.Trie.Settings
import PrefixMatch.Trie.Walk
import PrefixMatch.Vocabulary.Format
import PrefixMatch.Vocabulary.Loader
import PrefixMatch.Yaml.Cursor
import PrefixMatch.Yaml.Document
import PrefixMatch.Yaml.Node
import PrefixMatch.Yaml.Scalar
import PrefixMatch.Yaml.Tag
import PrefixMatch.Yaml.Token
