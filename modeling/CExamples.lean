import CExamples.AddressPrograms
import CExamples.CharacterSenders
import CExamples.CharacterTypes.Is
import CExamples.CommandLineArguments.Report
import CExamples.DomainSocket.Decoding
import CExamples.FileSystem.Chown
import CExamples.FileSystem.Getcwd
import CExamples.Files.Dup2
import CExamples.IdPrograms
import CExamples.IoMultiplexing.HeldUp
import CExamples.IoMultiplexing.Poll.Cleanup
import CExamples.IoMultiplexing.Select.Cleanup
import CExamples.LineReaders
import CExamples.NetworkingFunctions.ListenAccept.Serving
import CExamples.NetworkingFunctions.Port
import CExamples.NumberConversion
import CExamples.Pipe.Reliable.Delivery
import CExamples.Pipe.Reliable.Leftover
import CExamples.Pipe.Reliable.Transfer
import CExamples.Pipe.Simple.Ending
import CExamples.Pipe.Simple.Progress
import CExamples.Pipe.Synchronized.LockStep
import CExamples.Pipe.Synchronized.Progress
import CExamples.Pipe.Synchronized.Refinement
import CExamples.Pthread.Ending
import CExamples.Pthread.Joining
import CExamples.PthreadCondition.Broadcast.Release
import CExamples.PthreadCondition.TimedWait.Deadline
import CExamples.PthreadCondition.TimedWait.Truthful
import CExamples.PthreadCondition.WaitSignal.HandOff
import CExamples.PthreadCondition.WaitSignal.Progress
import CExamples.PthreadMutex.Total
import CExamples.SeekDemos
import CExamples.Semaphores.Settling
import CExamples.Servers.Stopping
import CExamples.SharedMemory.Ending
import CExamples.SharedMemory.Mapping
import CExamples.Sleep.Nanosleep
import CExamples.SortingSearching.Bsearch
import CExamples.Streams.Echo
import CExamples.StringProcessing.Snprintf
import CExamples.StringProcessing.StrtokR
import CExamples.Strings.Strncpy
import CExamples.Terminal.Tcsetattr
import CExamples.Transition.Simulation
import CExamples.Word.Tokenizer
import CExamples.WordBuffers
import CExamples.SocketAddress
import CExamples.Udp.Core
