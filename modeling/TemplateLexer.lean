import TemplateLexer.Reader
import TemplateLexer.Config.Setting
import TemplateLexer.Event
import TemplateLexer.Proofs.Trie.LongestSuffix
import TemplateLexer.Proofs.Trie.Chain
import TemplateLexer.Proofs.Trie.Links
import TemplateLexer.Proofs.Trie.Growth
import TemplateLexer.Proofs.Trie.Patterns
import TemplateLexer.Proofs.Trie.Count
import TemplateLexer.Proofs.Automaton.Reachable
import TemplateLexer.Proofs.Matcher.Reading
import TemplateLexer.Proofs.Raw.Letter
import TemplateLexer.Proofs.Raw.Piece
import TemplateLexer.Proofs.Raw.Recognition
import TemplateLexer.Proofs.Config.Automaton
import TemplateLexer.Proofs.Lexer.Reachable
import TemplateLexer.Proofs.Raw.Scan
import TemplateLexer.Proofs.Raw.Escaped
import TemplateLexer.Proofs.Raw.Leftmost
import TemplateLexer.Proofs.Raw.Hidden
import TemplateLexer.Proofs.Block.Reading
import TemplateLexer.Proofs.Lexer.Remaining
import TemplateLexer.Proofs.Lexer.EndOfInput
import TemplateLexer.Proofs.Raw.Shortest
import TemplateLexer.Proofs.Block.Unknown
import TemplateLexer.Proofs.Raw.Written
import TemplateLexer.Proofs.Raw.ChunkSize
import TemplateLexer.Proofs.Raw.Split
import TemplateLexer.Proofs.Lexer.Trim
import TemplateLexer.Proofs.Reader.Utf8
import TemplateLexer.Proofs.Reader.WellFormed
import TemplateLexer.Proofs.Reader.Failures
import TemplateLexer.Proofs.Block.Printed
import TemplateLexer.Proofs.Cursor.Taken
import TemplateLexer.Proofs.Block.Contents
import TemplateLexer.Proofs.Raw.Contents
import TemplateLexer.Proofs.Lexer.Session
import TemplateLexer.Proofs.Lexer.Contents
import TemplateLexer.Proofs.Lexer.EndPosition
import TemplateLexer.Proofs.Block.Quoted
import TemplateLexer.Proofs.Block.Longest
import TemplateLexer.Proofs.Config.Validation
import TemplateLexer.Proofs.Automaton.Checked
import TemplateLexer.Proofs.Automaton.Matching
import TemplateLexer.Proofs.Trie.Numbering
import TemplateLexer.Proofs.Trie.Fallbacks
import TemplateLexer.Proofs.Automaton.History
import TemplateLexer.Proofs.Automaton.FallbackTable
import TemplateLexer.Proofs.Automaton.Building
import TemplateLexer.Proofs.Lexer.Progress
import TemplateLexer.Proofs.Cursor.Simulation
import TemplateLexer.Proofs.Lexer.Failure
