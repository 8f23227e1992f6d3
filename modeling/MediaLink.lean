import MediaLink.Decimal
import MediaLink.Binary64
import MediaLink.Diagnostic
import MediaLink.Element
import MediaLink.Options
import MediaLink.Text.Ranges
import MediaLink.Text.Alphanumeric
import MediaLink.Text.Lowercase
import MediaLink.Slug
import MediaLink.Text.Identifier
import MediaLink.Registry
import MediaLink.Reference
import MediaLink.Srcset.Density
import MediaLink.Srcset.Candidate
import MediaLink.Text.Blank
import MediaLink.Srcset.Parser
import MediaLink.Srcset.Template
import MediaLink.Tree
import MediaLink.Target
import MediaLink.Encoding
import MediaLink.Estree.Basic
import MediaLink.Estree.Reader
import MediaLink.Estree.Writer
import MediaLink.Linking
import MediaLink.Script.Construct
import MediaLink.Script.Dialect
import MediaLink.Script.SyntaxError
import MediaLink.Script.Number
import MediaLink.Script.Token
import MediaLink.Script.Parser.State
import MediaLink.Script.Parser.Element
import MediaLink.Script.Parser.Expression
import MediaLink.Script.Parser.Statement
import MediaLink.Script.Parser.Program
import MediaLink.Script.Quote
import MediaLink.Script.Printer
import MediaLink.Transform
import MediaLink.Script.Source
import MediaLink.Proofs.SlugRepeats
import MediaLink.Proofs.SlugRuns
import MediaLink.Proofs.BindingName
import MediaLink.Proofs.Session
import MediaLink.Proofs.SessionRuns
import MediaLink.Proofs.Resolution
import MediaLink.Proofs.Retries
import MediaLink.Proofs.Substitution
import MediaLink.Proofs.Eligible
import MediaLink.Proofs.Walk
import MediaLink.Proofs.CollectSubstitute
import MediaLink.Proofs.Sites
import MediaLink.Proofs.Links
import MediaLink.Proofs.Rounding
import MediaLink.Proofs.Descriptors
import MediaLink.Proofs.Numerals
import MediaLink.Proofs.NumberLanguage
import MediaLink.Proofs.DescriptorTokens
import MediaLink.Proofs.DescriptorPieces
import MediaLink.Proofs.CandidateText
import MediaLink.Proofs.Rounds
import MediaLink.Proofs.Filled
import MediaLink.Proofs.Serialization
import MediaLink.Proofs.Cut
import MediaLink.Proofs.Joining
import MediaLink.Proofs.Occurrences
import MediaLink.Proofs.Relinking
import MediaLink.Proofs.Exclusion
import MediaLink.Proofs.Placement
import MediaLink.Proofs.Partition
import MediaLink.Proofs.Markup
import MediaLink.Proofs.Encodings
import MediaLink.Proofs.LetterCase
import MediaLink.Proofs.References
import MediaLink.Proofs.RelativePaths
import MediaLink.Proofs.LabelPositions
import MediaLink.Proofs.Reporting
import MediaLink.Proofs.Hygiene
import MediaLink.Proofs.Attributes
import MediaLink.Proofs.LinkedTree
import MediaLink.Proofs.AbsoluteUrl
import MediaLink.Proofs.Rewritable
import MediaLink.Proofs.SuffixNames
import MediaLink.Proofs.Ampersand
import MediaLink.Proofs.LiteralText
import MediaLink.Proofs.ValidNames
import MediaLink.Proofs.CanonicalPaths
import MediaLink.Proofs.TemplateText
import MediaLink.Proofs.NameReading
import MediaLink.Proofs.TemplateReading
