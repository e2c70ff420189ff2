import ImportTrail.CommandLine
import ImportTrail.Main
import ImportTrail.Proofs.Crawl.Accounting
import ImportTrail.Proofs.Crawl.BreadthFirst
import ImportTrail.Proofs.Crawl.Comparison
import ImportTrail.Proofs.Crawl.Containment
import ImportTrail.Proofs.Crawl.Expansion
import ImportTrail.Proofs.Crawl.Probes
import ImportTrail.Proofs.Crawl.Queue
import ImportTrail.Proofs.Disk.Walk
import ImportTrail.Proofs.Glob.Reading
import ImportTrail.Proofs.Glob.Rests
import ImportTrail.Proofs.Grammar.Run
import ImportTrail.Proofs.IgnoreSet.Closure
import ImportTrail.Proofs.IgnoreSet.Components
import ImportTrail.Proofs.Include.Lines
import ImportTrail.Proofs.JavaScript.Scan
import ImportTrail.Proofs.JavaScript.Statements
import ImportTrail.Proofs.Path.Ancestors
import ImportTrail.Proofs.Path.Canonical
import ImportTrail.Proofs.Path.Joining
import ImportTrail.Proofs.Path.Stack
import ImportTrail.Proofs.Python.Agreement
import ImportTrail.Proofs.Python.Composition
import ImportTrail.Proofs.Python.Grammar
import ImportTrail.Proofs.Python.Joining
import ImportTrail.Proofs.Python.LogicalLines
import ImportTrail.Proofs.Python.Scan
import ImportTrail.Proofs.Python.Statements
import ImportTrail.Proofs.Resolve.AbsoluteImport
import ImportTrail.Proofs.Resolve.Containment
import ImportTrail.Proofs.Resolve.Directory
import ImportTrail.Proofs.Resolve.LocalPath
import ImportTrail.Proofs.Resolve.Probes
import ImportTrail.Proofs.Resolve.RelativeImport
import ImportTrail.Proofs.Resolve.ScriptOrder
import ImportTrail.Proofs.Rust.Agreement
import ImportTrail.Proofs.Rust.Declarations
import ImportTrail.Proofs.Rust.Grammar
import ImportTrail.Proofs.Rust.Items
import ImportTrail.Proofs.Rust.Scan
import ImportTrail.Proofs.Scan.Find
import ImportTrail.Proofs.Scan.SpecifierKind
import ImportTrail.Proofs.Scan.Spelling
import ImportTrail.Proofs.Settings.Discovery
import ImportTrail.Proofs.Settings.Faults
import ImportTrail.Proofs.Settings.Precedence
import ImportTrail.Proofs.Text.Blanks
import ImportTrail.Proofs.Text.Pieces
import ImportTrail.Proofs.UseTree.Expansion
import ImportTrail.Proofs.UseTree.Roots
