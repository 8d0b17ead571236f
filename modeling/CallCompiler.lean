import CallCompiler.Calendar
import CallCompiler.Command.Script
import CallCompiler.Console.Display
import CallCompiler.Engine
import CallCompiler.Main
import CallCompiler.Proofs.Concatenation
import CallCompiler.Proofs.Correspondence
import CallCompiler.Proofs.Dumps
import CallCompiler.Proofs.Nesting
import CallCompiler.Proofs.Notices
import CallCompiler.Proofs.OutputLines
import CallCompiler.Proofs.Precedence
import CallCompiler.Proofs.Preorder
import CallCompiler.Proofs.Records
import CallCompiler.Proofs.Runs
import CallCompiler.Proofs.Spelling
import CallCompiler.Proofs.Stepping
import CallCompiler.Proofs.TokenOrder
import CallCompiler.Proofs.Tours
import CallCompiler.Settings.Lookup
import CallCompiler.Source.Cursor
import CallCompiler.Proofs.RenderOrder
import CallCompiler.Proofs.Reports
import CallCompiler.Proofs.Fallback
import CallCompiler.Proofs.Channels
import CallCompiler.Proofs.Messages
