import LexRules.Command.Run
import LexRules.FileTree.Build
import LexRules.Main
import LexRules.Proofs.Discovery.Links
import LexRules.Proofs.Discovery.Plain
import LexRules.Proofs.Discovery.Project
import LexRules.Proofs.FileTree.Chains
import LexRules.Proofs.FileTree.Spelling
import LexRules.Proofs.Rule.File
import LexRules.Proofs.Rule.Writing
import LexRules.Proofs.Token.Verdict
import LexRules.Proofs.Discovery.Scope
import LexRules.Proofs.Command.Status
import LexRules.Proofs.Rule.Draining
import LexRules.Proofs.Command.Decoding
import LexRules.Proofs.Discovery.Queue
import LexRules.Proofs.Command.Relisting
import LexRules.Proofs.Cursor.Offset
import LexRules.Proofs.Cursor.Run
import LexRules.Proofs.Token.Key
import LexRules.Proofs.Path.Shown
import LexRules.Proofs.Discovery.Merging
import LexRules.Proofs.Cursor.Stepping
import LexRules.Proofs.Rule.Grammar
import LexRules.Proofs.Rule.Appending
import LexRules.Proofs.Rule.Requiring
import LexRules.Proofs.Rule.Padding
import LexRules.Proofs.Discovery.Layers
import LexRules.Proofs.Token.Rewriting
import LexRules.Proofs.Discovery.Dangling
import LexRules.Proofs.Command.Isolation
import LexRules.Proofs.Scalar.Equality
import LexRules.Proofs.Token.Json
import LexRules.Proofs.Extensions.Normal
