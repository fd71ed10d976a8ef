import ClassLocator.Main
import ClassLocator.Proofs.Reading
import ClassLocator.Proofs.Text.Bytes
import ClassLocator.Proofs.MethodType.Cursor
import ClassLocator.Proofs.MethodType.Wire
import ClassLocator.Proofs.MethodType.Descriptor
import ClassLocator.Proofs.MethodType.Signature
import ClassLocator.Proofs.MethodType.Erased
import ClassLocator.Proofs.MethodType.Names
import ClassLocator.Proofs.MethodType.Walk.Boundaries
import ClassLocator.Proofs.ClassFile.Input
import ClassLocator.Proofs.ClassFile.Layout
import ClassLocator.Proofs.ClassFile.Parse
import ClassLocator.Proofs.ClassFile.Assembly
import ClassLocator.Proofs.ClassFile.Groups
import ClassLocator.Proofs.ClassFile.Declared
import ClassLocator.Proofs.ClassFile.Ellipsis
import ClassLocator.Proofs.ClassFile.Outcomes
import ClassLocator.Proofs.ClassFile.AddedSignature
import ClassLocator.Proofs.ClassFile.Overloads
import ClassLocator.Proofs.ClassFile.Extended
import ClassLocator.Proofs.ClassFile.Spans
import ClassLocator.Proofs.ClassFile.Breaks
import ClassLocator.Proofs.ClassFile.Truncated
import ClassLocator.Proofs.ClassFile.Slots
import ClassLocator.Proofs.Search.Matches
import ClassLocator.Proofs.Search.Account
import ClassLocator.Proofs.Search.Calls
import ClassLocator.Proofs.Path
import ClassLocator.Proofs.Text.LetterCase
import ClassLocator.Proofs.Text.Parts
import ClassLocator.Proofs.Text.Blank
import ClassLocator.Proofs.Text.AsciiCase
import ClassLocator.Proofs.Text.Lines
import ClassLocator.Proofs.Text.Json
import ClassLocator.Proofs.Text.Order
import ClassLocator.Proofs.Report
import ClassLocator.Proofs.Path.Under
import ClassLocator.Proofs.FileTree.Listing
import ClassLocator.Proofs.Query
import ClassLocator.Proofs.Candidate
import ClassLocator.Proofs.Candidate.Parts
import ClassLocator.Proofs.Candidate.AsciiCase
import ClassLocator.Proofs.Search.Kinds
import ClassLocator.Proofs.Search.Events
import ClassLocator.Proofs.Search.Trace
import ClassLocator.Proofs.Search.Refinement
import ClassLocator.Proofs.Search.Packed
import ClassLocator.Proofs.FileTree
import ClassLocator.Proofs.Search.Contents
import ClassLocator.Proofs.Search.Failures
import ClassLocator.Proofs.Text.Pattern
import ClassLocator.Proofs.Archive.Entry
import ClassLocator.Proofs.Java.Members
import ClassLocator.Proofs.Java.Line
import ClassLocator.Proofs.Java.Comments
