import DocAudit.Check
import DocAudit.Check.Tag
import DocAudit.Command
import DocAudit.Command.Arguments
import DocAudit.Command.Help
import DocAudit.Command.Outcome
import DocAudit.Comment.Event
import DocAudit.Comment.Token
import DocAudit.Configuration
import DocAudit.Declaration
import DocAudit.Diagnostic
import DocAudit.Discovery
import DocAudit.Erasure
import DocAudit.FileTree
import DocAudit.Glob
import DocAudit.IgnoreLayer
import DocAudit.IgnoreRule
import DocAudit.Java.Header
import DocAudit.Java.Outline
import DocAudit.Java.Syntax
import DocAudit.Java.Token
import DocAudit.Java.Tree
import DocAudit.JavaType
import DocAudit.Main
import DocAudit.Path
import DocAudit.PathFilter
import DocAudit.Platform
import DocAudit.Platform.Basic
import DocAudit.Platform.Collections
import DocAudit.Platform.Concurrency
import DocAudit.Platform.Functions
import DocAudit.Platform.Language
import DocAudit.Platform.Streams
import DocAudit.Platform.Throwables
import DocAudit.Project
import DocAudit.Proofs.Comment.Layout
import DocAudit.Proofs.Comment.LayoutOfText
import DocAudit.Proofs.Comment.Place
import DocAudit.Proofs.Comment.Scan
import DocAudit.Reference
import DocAudit.Report
import DocAudit.Report.Json
import DocAudit.Scope
import DocAudit.Settings
import DocAudit.Signature
import DocAudit.Text
import DocAudit.Text.Quoted
import DocAudit.Text.Shown
import DocAudit.Toml.Document
import DocAudit.Toml.Quoted
import DocAudit.Toml.Scalar
import DocAudit.Toml.Table
import DocAudit.Toml.Value
import DocAudit.TypeTable
import DocAudit.TypeTable.Hierarchy
import DocAudit.TypeTable.OfUnits
import DocAudit.Violation
import DocAudit.Proofs.Comment.RoundTrip
import DocAudit.Proofs.Comment.SingleComment
import DocAudit.Proofs.Check.Verdict
import DocAudit.Proofs.Check.Completeness
import DocAudit.Proofs.TypeTable.Lookup
import DocAudit.Proofs.TypeTable.Signatures
import DocAudit.Proofs.Comment.Run
import DocAudit.Proofs.Comment.Written
import DocAudit.Proofs.Comment.WrittenEvents
import DocAudit.Proofs.TypeTable.Reachability
import DocAudit.Proofs.Reference.Written
import DocAudit.Proofs.Reference.Acceptance
import DocAudit.Proofs.Check.Independence
import DocAudit.Proofs.TypeTable.Order
import DocAudit.Proofs.Sorting
import DocAudit.Proofs.Project.Order
import DocAudit.Proofs.Comment.Closing
import DocAudit.Proofs.Comment.ClosingEvents
import DocAudit.Proofs.Check.ClosingSpace
import DocAudit.Proofs.Comment.Blocks
import DocAudit.Proofs.Comment.Sites
import DocAudit.Proofs.Check.Lines
import DocAudit.Proofs.TypeTable.Redeclaration
import DocAudit.Proofs.Check.Origin
import DocAudit.Proofs.Check.Settings
import DocAudit.Proofs.Check.Overriding
import DocAudit.Proofs.Java.Names
import DocAudit.Proofs.Java.Items
import DocAudit.Proofs.Java.Members
import DocAudit.Proofs.Java.Declared
import DocAudit.Proofs.Check.Quotes
import DocAudit.Proofs.Project.Lines
import DocAudit.Proofs.Java.Attachment
import DocAudit.Proofs.TypeTable.Inheritance
import DocAudit.Proofs.TypeTable.TypeVariables
import DocAudit.Proofs.Scope.Capture
import DocAudit.Proofs.Scope.Stability
import DocAudit.Proofs.Erasure.Spelling
import DocAudit.Proofs.Signature.Walk
import DocAudit.Proofs.Scope.Dimensions
import DocAudit.Proofs.Scope.Imports
import DocAudit.Proofs.TypeTable.Unchecked
import DocAudit.Proofs.Check.Length
import DocAudit.Proofs.Comment.Segmentation
import DocAudit.Proofs.TypeTable.History
import DocAudit.Proofs.Project.FileSettings
import DocAudit.Proofs.Java.Outermost
