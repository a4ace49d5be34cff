import ContentClasses.Config.Codec
import ContentClasses.Config.Document
import ContentClasses.Json.Printer
import ContentClasses.Main
import ContentClasses.Proofs.Diagnostics
import ContentClasses.Proofs.Failures
import ContentClasses.Proofs.Skips
import ContentClasses.Proofs.Identifiers
import ContentClasses.Proofs.TypedClass
import ContentClasses.Proofs.Order
import ContentClasses.Proofs.Growth
import ContentClasses.Proofs.TypeNames
import ContentClasses.Proofs.LinkedRuns
import ContentClasses.Proofs.Declarations
import ContentClasses.Proofs.Names
import ContentClasses.Proofs.Members
import ContentClasses.Proofs.ClassNames
import ContentClasses.Proofs.Flattening
import ContentClasses.Proofs.LinkCounts
import ContentClasses.Proofs.Literals
import ContentClasses.Proofs.Marks
import ContentClasses.Proofs.RegularLiterals
import ContentClasses.Proofs.Templates
import ContentClasses.Proofs.Listings
import ContentClasses.Proofs.Histories
import ContentClasses.Proofs.ValidNames
import ContentClasses.Proofs.Entries
import ContentClasses.Proofs.WrittenFiles
import ContentClasses.Proofs.EntryPoints
import ContentClasses.Proofs.RunEffects
import ContentClasses.Proofs.JsonRoundTrips
import ContentClasses.Proofs.SchemaDirectories
import ContentClasses.Proofs.SettingSources
import ContentClasses.Proofs.SavedConfigs
import ContentClasses.Proofs.WordCases
import ContentClasses.Proofs.FixedPoints
import ContentClasses.Proofs.LinkAnswers
import ContentClasses.Proofs.EmptyResults
import ContentClasses.Proofs.KindNames
import ContentClasses.Proofs.LinkKeys
import ContentClasses.Proofs.FileNames
import ContentClasses.Proofs.LayerPrecedence
import ContentClasses.Proofs.Providers
import ContentClasses.Proofs.LiteralReading
