import LoxScan.About
import LoxScan.Demo
import LoxScan.Distribution.Manifest
import LoxScan.Main
import LoxScan.SourceFile
import LoxScan.Token.Record
import LoxScan.Workspace.Command
import LoxScan.Proofs.Lexing
import LoxScan.Proofs.Lines
import LoxScan.Proofs.Lookahead
import LoxScan.Proofs.Restart
import LoxScan.Proofs.Joining
import LoxScan.Proofs.Concatenation
import LoxScan.Proofs.Lexeme
import LoxScan.Proofs.Layout
import LoxScan.Proofs.Adjacency
import LoxScan.Proofs.ErrorAutomaton
import LoxScan.Proofs.Recovery
import LoxScan.Proofs.Trivia
import LoxScan.Proofs.Reader
import LoxScan.Proofs.Reading
import LoxScan.Proofs.Totality
import LoxScan.Proofs.Interruption
import LoxScan.Proofs.Reporting
import LoxScan.Proofs.Independence
import LoxScan.Proofs.Reuse
import LoxScan.Proofs.SinkHistory
import LoxScan.Proofs.FileText
import LoxScan.Proofs.FirstError
import LoxScan.Proofs.CarriageReturn
import LoxScan.Proofs.ForeignCharacter
import LoxScan.Proofs.Numeral
import LoxScan.Proofs.NumberText
import LoxScan.Proofs.TokenText
import LoxScan.Proofs.ErrorText
import LoxScan.Proofs.VersionLine
