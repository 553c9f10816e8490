import CodecChain.Text.Basic
import CodecChain.Text.CodeTable
import CodecChain.Text.Blank
import CodecChain.Text.Utf8
import CodecChain.Text.Alphabetic
import CodecChain.Text.Numeric
import CodecChain.Text.Mark
import CodecChain.Text.Nonprinting
import CodecChain.Text.Quoted
import CodecChain.Base64
import CodecChain.RunLength
import CodecChain.Deflate.Stream
import CodecChain.Deflate.Compressor
import CodecChain.Gzip.Member
import CodecChain.Run.Engine
import CodecChain.Json.Variant
import CodecChain.Report.Summary
import CodecChain.Files.Path
import CodecChain.Host.Machine
import CodecChain.Yaml.Reader
import CodecChain.Yaml.Writer
import CodecChain.Config.Store
import CodecChain.Program
import CodecChain.Failure
import CodecChain.Run.Console
import CodecChain.Workspace.Guide
import CodecChain.Workspace.Basic
import CodecChain.Workspace.Run
import CodecChain.Command.Switch
import CodecChain.Command.Invocation
import CodecChain.Command.Usage
import CodecChain.Command.Perform
import CodecChain.Host.Clock
import CodecChain.Main
import CodecChain.Yaml.Character
import CodecChain.Yaml.Folding
import CodecChain.Yaml.Scalar.Block
import CodecChain.Yaml.Scalar.Plain
import CodecChain.Yaml.Scalar.Quoted
import CodecChain.Yaml.Token.Basic
import CodecChain.Yaml.Token.Label
import CodecChain.Yaml.Token.Lexer
import CodecChain.Proofs.Text.Trimmed
import CodecChain.Proofs.Text.Padding
import CodecChain.Proofs.Text.Quoted
import CodecChain.Proofs.Chain.Spelling
import CodecChain.Proofs.Chain.Positions
import CodecChain.Proofs.Chain.Inversion
import CodecChain.Proofs.Chain.Concatenation
import CodecChain.Proofs.Chain.Printing
import CodecChain.Proofs.Codec.Hex
import CodecChain.Proofs.Codec.Base64
import CodecChain.Proofs.Codec.RunLength
import CodecChain.Proofs.Codec.Gzip
import CodecChain.Proofs.Codec.Checksum
import CodecChain.Proofs.Codec.Coding
import CodecChain.Proofs.Codec.Runs
import CodecChain.Proofs.Codec.SelfDelimiting
import CodecChain.Proofs.Codec.Header
import CodecChain.Proofs.Codec.Framing
import CodecChain.Proofs.Codec.Canonical
import CodecChain.Proofs.Codec.BrokenRuns
import CodecChain.Proofs.Codec.HexDigits
import CodecChain.Proofs.Codec.Carried
import CodecChain.Proofs.Codec.Located
import CodecChain.Proofs.Deflate.Bits
import CodecChain.Proofs.Deflate.Code
import CodecChain.Proofs.Deflate.Fixed
import CodecChain.Proofs.Deflate.Stable
import CodecChain.Proofs.Deflate.Extent
import CodecChain.Proofs.Deflate.Literal
import CodecChain.Proofs.Deflate.Searching
import CodecChain.Proofs.Run.Plan
import CodecChain.Proofs.Run.Stages
import CodecChain.Proofs.Run.Interruption
import CodecChain.Proofs.Run.Undo
import CodecChain.Proofs.Run.Outline
import CodecChain.Proofs.Run.Erasure
import CodecChain.Proofs.Run.Asking
import CodecChain.Proofs.Run.Idle
import CodecChain.Proofs.Run.ConsoleLines
import CodecChain.Proofs.Run.Mistaken
import CodecChain.Proofs.Files.Growth
import CodecChain.Proofs.Files.Climbing
import CodecChain.Proofs.Host.Attempt
import CodecChain.Proofs.Workspace.Inputs
import CodecChain.Proofs.Workspace.MissingInput
import CodecChain.Proofs.Workspace.Filling
import CodecChain.Proofs.Workspace.Endings
import CodecChain.Proofs.Workspace.Keeping
import CodecChain.Proofs.Workspace.Settled
import CodecChain.Proofs.Json.Quoting
import CodecChain.Proofs.Json.RoundTrip
import CodecChain.Proofs.Json.Numerals
import CodecChain.Proofs.Json.Grammar
import CodecChain.Proofs.Json.Printing
import CodecChain.Proofs.Report.Summary
import CodecChain.Proofs.Yaml.Readable
import CodecChain.Proofs.Yaml.Double
import CodecChain.Proofs.Yaml.Single
import CodecChain.Proofs.Yaml.Plain
import CodecChain.Proofs.Yaml.Literal
import CodecChain.Proofs.Yaml.Lexing
import CodecChain.Proofs.Yaml.Values
import CodecChain.Proofs.Yaml.Entries
import CodecChain.Proofs.Config.RoundTrip
import CodecChain.Proofs.Config.Saving
import CodecChain.Proofs.Config.Settings
import CodecChain.Proofs.Config.Override
