import ImportAtlas.Json.Message
import ImportAtlas.Main
import ImportAtlas.Proofs.Assembly
import ImportAtlas.Proofs.ByteOrder
import ImportAtlas.Proofs.Walk
import ImportAtlas.Proofs.PackageGraph
import ImportAtlas.Proofs.JsonText
import ImportAtlas.Proofs.JsonRecord
import ImportAtlas.Proofs.JsonRoundTrip
import ImportAtlas.Proofs.FilteredScan
import ImportAtlas.Proofs.DotRoundTrip
import ImportAtlas.Proofs.InertImport
import ImportAtlas.Proofs.TidyTree
import ImportAtlas.Proofs.TidyExpression
import ImportAtlas.Proofs.TidyStatement
import ImportAtlas.Proofs.SourceImports
import ImportAtlas.Proofs.ImportProgram
import ImportAtlas.Proofs.GapText
import ImportAtlas.Proofs.ReadName
import ImportAtlas.Proofs.ReadImport
import ImportAtlas.Proofs.ReadCondition
import ImportAtlas.Proofs.ProgramLines
import ImportAtlas.Proofs.ReadBlock
import ImportAtlas.Proofs.ReadStatement
import ImportAtlas.Proofs.ReadProgram
import ImportAtlas.Proofs.WrittenFile
import ImportAtlas.Proofs.SplitText
import ImportAtlas.Proofs.RepeatedRun
import ImportAtlas.Proofs.ScriptPayload
import ImportAtlas.Proofs.RelativeImport
import ImportAtlas.Proofs.InternalModules
import ImportAtlas.Proofs.FilteredCycles
import ImportAtlas.Proofs.Layering
import ImportAtlas.Proofs.PagePayload
import ImportAtlas.Proofs.DotComments
import ImportAtlas.Proofs.NodeIdentity
import ImportAtlas.Proofs.Filler
import ImportAtlas.Proofs.BareTree
import ImportAtlas.Proofs.RelativePrefix
import ImportAtlas.Proofs.NamedImport
import ImportAtlas.Proofs.NamelessModule
import ImportAtlas.Proofs.NameList
import ImportAtlas.Proofs.GraphViews
import ImportAtlas.Proofs.MergedRecords
import ImportAtlas.Proofs.PackagePlace
import ImportAtlas.Proofs.SourcePath
