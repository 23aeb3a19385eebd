import JvmRoutes.Annotation.Basic
import JvmRoutes.Annotation.Display
import JvmRoutes.Annotation.Marker
import JvmRoutes.Archive.Bzip
import JvmRoutes.Archive.Checksum
import JvmRoutes.Archive.CodePage
import JvmRoutes.Archive.Deflate
import JvmRoutes.Archive.Directory
import JvmRoutes.Archive.Fault
import JvmRoutes.Archive.Lzma
import JvmRoutes.Archive.Members
import JvmRoutes.Archive.Mixing
import JvmRoutes.Archive.Pack
import JvmRoutes.Archive.PrefixCode
import JvmRoutes.Archive.Unpacking
import JvmRoutes.Class
import JvmRoutes.ClassFile.AnnotationTable
import JvmRoutes.ClassFile.ConstantPool
import JvmRoutes.ClassFile.Cursor
import JvmRoutes.ClassFile.Decode
import JvmRoutes.ClassFile.Fault
import JvmRoutes.ClassFile.Variables
import JvmRoutes.CommandLine.Options
import JvmRoutes.CommandLine.Run
import JvmRoutes.Config
import JvmRoutes.Decimal.Binary64
import JvmRoutes.Decimal.Shortest
import JvmRoutes.Extraction
import JvmRoutes.Fault
import JvmRoutes.Files.Obstacle
import JvmRoutes.Files.Path
import JvmRoutes.Files.Tree
import JvmRoutes.Handler.Effective
import JvmRoutes.Handler.Inputs
import JvmRoutes.Handler.Origin
import JvmRoutes.Handler.Result
import JvmRoutes.Json.Basic
import JvmRoutes.Json.Printer
import JvmRoutes.Loader.Ancestry
import JvmRoutes.Loader.Basic
import JvmRoutes.Loader.Hierarchy
import JvmRoutes.Loader.Store
import JvmRoutes.Log
import JvmRoutes.Main
import JvmRoutes.Mount
import JvmRoutes.Operation.Basic
import JvmRoutes.Operation.Document
import JvmRoutes.Operation.Graph
import JvmRoutes.Operation.Handling
import JvmRoutes.Operation.Page
import JvmRoutes.Operation.Report
import JvmRoutes.Operation.Statistics
import JvmRoutes.OrderedMap
import JvmRoutes.Platform
import JvmRoutes.Route.Key
import JvmRoutes.Route.Media
import JvmRoutes.Route.Path
import JvmRoutes.Route.Pattern
import JvmRoutes.Route.Verb
import JvmRoutes.Schema.Basic
import JvmRoutes.Schema.Catalog
import JvmRoutes.Schema.OfType
import JvmRoutes.Signature.JavaType
import JvmRoutes.Signature.MethodReader
import JvmRoutes.Signature.Primitive
import JvmRoutes.Signature.Reader
import JvmRoutes.Signature.TypeReader
import JvmRoutes.Text.Blank
import JvmRoutes.Text.CaseRuns
import JvmRoutes.Text.CasedRanges
import JvmRoutes.Text.Digit
import JvmRoutes.Text.Hex
import JvmRoutes.Text.IgnorableRanges
import JvmRoutes.Text.LetterCase
import JvmRoutes.Text.ModifiedUtf8
import JvmRoutes.Text.PrintableRanges
import JvmRoutes.Text.Quoted
import JvmRoutes.Text.Ranges
import JvmRoutes.Text.Word
import JvmRoutes.Text.WordRanges
import JvmRoutes.TypeName
import JvmRoutes.Proofs.ClassFile.Reading
import JvmRoutes.Proofs.ClassFile.PoolLayout
import JvmRoutes.Proofs.Text.CodeUnits
import JvmRoutes.Proofs.OrderedMap
import JvmRoutes.Proofs.ClassFile.AnnotationLayout
import JvmRoutes.Proofs.ClassFile.Layout
import JvmRoutes.Proofs.ClassFile.TableReading
import JvmRoutes.Proofs.Log
import JvmRoutes.Proofs.TypeName
import JvmRoutes.Proofs.ClassFile.RoundTrip
import JvmRoutes.Proofs.ClassFile.Locality
import JvmRoutes.Proofs.ClassFile.Depth
import JvmRoutes.Proofs.ClassFile.Silence
import JvmRoutes.Proofs.ClassFile.AnnotationEscape
import JvmRoutes.Proofs.ClassFile.PoolEscape
import JvmRoutes.Proofs.ClassFile.DecodeEscape
import JvmRoutes.Proofs.Signature.TypeTree
import JvmRoutes.Proofs.Signature.Grammar
import JvmRoutes.Proofs.Signature.Parsing
import JvmRoutes.Proofs.Archive.Members
import JvmRoutes.Proofs.Files.Contents
import JvmRoutes.Proofs.Loader.Source
import JvmRoutes.Proofs.Loader.Candidates
import JvmRoutes.Proofs.Loader.Settling
import JvmRoutes.Proofs.Loader.Ancestry
import JvmRoutes.Proofs.Handler.Search
import JvmRoutes.Proofs.Extraction
import JvmRoutes.Proofs.Signature.MethodParsing
import JvmRoutes.Proofs.Loader.Consistency
import JvmRoutes.Proofs.Loader.Search
import JvmRoutes.Proofs.Loader.Lineage
import JvmRoutes.Proofs.Extraction.Findings
import JvmRoutes.Proofs.Extraction.Routes
import JvmRoutes.Proofs.Extraction.WellFormed
import JvmRoutes.Proofs.ClassFile.Truncation
import JvmRoutes.Proofs.Extraction.Base
import JvmRoutes.Proofs.Extraction.Subclass
import JvmRoutes.Proofs.Signature.ParameterList
import JvmRoutes.Proofs.Signature.Refusal
import JvmRoutes.Proofs.Handler.Continuation
import JvmRoutes.Proofs.Loader.Reporting
import JvmRoutes.Proofs.Extraction.Escape
import JvmRoutes.Proofs.Loader.WayUp
import JvmRoutes.Proofs.Loader.InStep
import JvmRoutes.Proofs.Handler.Required
import JvmRoutes.Proofs.Extraction.Required
import JvmRoutes.Proofs.Loader.Agreement
import JvmRoutes.Proofs.Handler.Overriding
import JvmRoutes.Proofs.Extraction.Narrowing
import JvmRoutes.Proofs.ClassFile.MethodRecords
import JvmRoutes.Proofs.Loader.Faults
import JvmRoutes.Proofs.Handler.Variables
import JvmRoutes.Proofs.Text.Forms
import JvmRoutes.Proofs.ClassFile.Recovery
import JvmRoutes.Proofs.ClassFile.Texts
import JvmRoutes.Proofs.ClassFile.Descriptor
import JvmRoutes.Proofs.ClassFile.References
import JvmRoutes.Proofs.Handler.Classification
import JvmRoutes.Proofs.Handler.FormSchema
import JvmRoutes.Proofs.Text.Passes
import JvmRoutes.Proofs.Text.Blank
import JvmRoutes.Proofs.Route.Segments
import JvmRoutes.Proofs.Route.Grouping
import JvmRoutes.Proofs.Route.Key
import JvmRoutes.Proofs.Route.Template
import JvmRoutes.Proofs.Loader.Reserve
import JvmRoutes.Proofs.Handler.MostDerived
import JvmRoutes.Proofs.Handler.Suspending
import JvmRoutes.Proofs.Handler.Supplied
import JvmRoutes.Proofs.Loader.Nearest
import JvmRoutes.Proofs.Route.Resolution
import JvmRoutes.Proofs.Signature.Acceptance
import JvmRoutes.Proofs.Signature.MethodAcceptance
import JvmRoutes.Proofs.Signature.Derivability
import JvmRoutes.Proofs.Schema.Parts
import JvmRoutes.Proofs.Schema.References
import JvmRoutes.Proofs.Schema.Enumerations
import JvmRoutes.Proofs.Schema.Beans
import JvmRoutes.Proofs.Loader.FailedLookup
import JvmRoutes.Proofs.Operation.Graph
import JvmRoutes.Proofs.Operation.Statistics
import JvmRoutes.Proofs.Files.Walk
import JvmRoutes.Proofs.Loader.Classpath
