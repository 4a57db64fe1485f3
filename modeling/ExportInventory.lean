import ExportInventory.Main
import ExportInventory.Tool
import ExportInventory.Proofs.Table
import ExportInventory.Proofs.Declaration
import ExportInventory.Proofs.Classification
import ExportInventory.Proofs.Correspondence
import ExportInventory.Proofs.Reordering
import ExportInventory.Proofs.Removal
import ExportInventory.Proofs.Reexport
import ExportInventory.Proofs.Report
import ExportInventory.Proofs.Sketch
import ExportInventory.Proofs.Analysis
import ExportInventory.Proofs.Markup
import ExportInventory.Proofs.Comment
import ExportInventory.Proofs.PublicName
import ExportInventory.Proofs.Identifier
import ExportInventory.Proofs.Parentheses
import ExportInventory.Proofs.Disk
import ExportInventory.Proofs.Path
import ExportInventory.Proofs.Frame
import ExportInventory.Proofs.Directory
import ExportInventory.Proofs.Source
import ExportInventory.Proofs.Scan
import ExportInventory.Proofs.Agreement
import ExportInventory.Proofs.Abort
import ExportInventory.Proofs.FileAnalysis
import ExportInventory.Proofs.Wrapping
import ExportInventory.Proofs.DefaultProps
import ExportInventory.Proofs.Nesting
import ExportInventory.Proofs.Parameters
import ExportInventory.Proofs.Discovery
import ExportInventory.Proofs.DefaultStatement
import ExportInventory.Proofs.Head
import ExportInventory.Proofs.Promotion
import ExportInventory.Proofs.Connector
import ExportInventory.Proofs.Extent
import ExportInventory.Proofs.PascalCase
import ExportInventory.Proofs.Literal
import ExportInventory.Proofs.Extension
import ExportInventory.Proofs.Splitting
import ExportInventory.Proofs.ParameterList
import ExportInventory.Proofs.Bracketing
import ExportInventory.Proofs.TopLevel
import ExportInventory.Proofs.Joining
import ExportInventory.Proofs.Blanking
